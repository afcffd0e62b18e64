import PeerTrust.Arith.Modular
import PeerTrust.Bytes

/-!
# The curve edwards25519

The twisted Edwards curve `-x² + y² = 1 + d x² y²` over the integers modulo `2^255 - 19`, with
points in extended coordinates `(x, y, z, t)`, where `t · z = x · y`.

* `Edwards.decodePoint?` and `Edwards.encodePoint` are the 32-octet form of a point: the
  coordinate `y`, least significant octet first, and the parity of `x` in the top bit;
* `Edwards.add`, `Edwards.negate` and `Edwards.scale` are the group operations.
-/

namespace PeerTrust.Edwards

/-- The size of the field. -/
def p : Nat := 2 ^ 255 - 19

/-- The order of the base point. -/
def order : Nat := 2 ^ 252 + 27742317777372353535851937790883648493

/-- The curve constant. -/
def d : Nat := 37095705934669439343138083508754565189542113879843219016388785533085940283555

/-- A square root of minus one. -/
def root : Nat := 19681161376707505956807079304988542015446066515923890162744021073123829784752

/-- A point in extended coordinates. -/
structure Point where
  x : Nat
  y : Nat
  z : Nat
  t : Nat
deriving Inhabited

/-- The neutral element. -/
def Point.neutral : Point := ⟨0, 1, 1, 0⟩

/-- The point with these affine coordinates. -/
def Point.ofAffine (x y : Nat) : Point := ⟨x, y, 1, x * y % p⟩

/-- The base point. -/
def base : Point :=
  .ofAffine 15112221349535400772501151409588531511454012693041857206046113283949847762202
    46316835694926478169428394003475163141307993866256225615783033603165251855960

/-- The sum of two points. -/
def add (q r : Point) : Point :=
  let a := Modular.sub p q.y q.x * Modular.sub p r.y r.x % p
  let b := (q.y + q.x) * (r.y + r.x) % p
  let c := 2 * q.t * r.t % p * d % p
  let dd := 2 * q.z * r.z % p
  let e := Modular.sub p b a
  let f := Modular.sub p dd c
  let g := (dd + c) % p
  let h := (b + a) % p
  ⟨e * f % p, g * h % p, f * g % p, e * h % p⟩

/-- The inverse of a point. -/
def negate (q : Point) : Point := ⟨(p - q.x) % p, q.y, q.z, (p - q.t) % p⟩

/-- Works through the bits of a scalar from number `bits - 1` down. -/
def scaleBits (k : Nat) (q : Point) : (bits : Nat) → (acc : Point) → Point
  | 0, acc => acc
  | bits + 1, acc =>
    let twice := add acc acc
    scaleBits k q bits (if k.testBit bits then add twice q else twice)

/-- The point `k · q` for a scalar of at most 256 bits. -/
def scale (k : Nat) (q : Point) : Point := scaleBits k q 256 .neutral

/-- A square root of `u / v`, if there is one. -/
def squareRoot? (u v : Nat) : Option Nat :=
  let v3 := v * v % p * v % p
  let x := u * v3 % p * Modular.pow p (u * (v3 * v3 % p * v % p) % p) ((p - 5) / 8) % p
  let check := v * (x * x % p) % p
  if check = u % p then some x
  else if check = (p - u % p) % p then some (x * root % p)
  else none

/-- The point behind 32 octets; the top bit says whether `x` is odd. -/
def decodePoint? (b : Bytes) : Option Point :=
  if b.length ≠ 32 then none
  else
    let raw := Bytes.toNatLow b
    let y := raw % 2 ^ 255 % p
    let y2 := y * y % p
    (squareRoot? (Modular.sub p y2 1) ((d * y2 + 1) % p)).map fun x =>
      .ofAffine (if x % 2 = raw / 2 ^ 255 then x else (p - x) % p) y

/-- The 32 octets of a point. -/
def encodePoint (q : Point) : Bytes :=
  let i := Modular.inverse p q.z
  let x := q.x * i % p
  let y := q.y * i % p
  Bytes.ofNatLow 32 (y + x % 2 * 2 ^ 255)

end PeerTrust.Edwards
