import PeerTrust.Arith.Modular
import PeerTrust.Bytes

/-!
# The curves P-256 and P-384

Short Weierstrass curves `y² = x³ - 3x + b` over a prime field, with points in Jacobian
coordinates: `(x, y, z)` stands for the affine point `(x / z², y / z³)` and `z = 0` for infinity.

* `Weierstrass.p256` and `Weierstrass.p384` are the two curves;
* `Curve.decodePoint?` reads the uncompressed form of a point and checks that it is on the curve;
* `Curve.double`, `Curve.add` and `Curve.scale` are the group operations;
* `Curve.combine` is `u · G + v · Q`, as signatures need it.
-/

namespace PeerTrust.Weierstrass

/-- A curve: field size, coefficient, generator, its order, and the octets of a coordinate. -/
structure Curve where
  p : Nat
  b : Nat
  gx : Nat
  gy : Nat
  n : Nat
  size : Nat

/-- The curve P-256. -/
def p256 : Curve where
  p := 0xffffffff00000001000000000000000000000000ffffffffffffffffffffffff
  b := 0x5ac635d8aa3a93e7b3ebbd55769886bc651d06b0cc53b0f63bce3c3e27d2604b
  gx := 0x6b17d1f2e12c4247f8bce6e563a440f277037d812deb33a0f4a13945d898c296
  gy := 0x4fe342e2fe1a7f9b8ee7eb4a7c0f9e162bce33576b315ececbb6406837bf51f5
  n := 0xffffffff00000000ffffffffffffffffbce6faada7179e84f3b9cac2fc632551
  size := 32

/-- The curve P-384. -/
def p384 : Curve where
  p := 0xfffffffffffffffffffffffffffffffffffffffffffffffffffffffffffffffeffffffff0000000000000000ffffffff
  b := 0xb3312fa7e23ee7e4988e056be3f82d19181d9c6efe8141120314088f5013875ac656398d8a2ed19d2a85c8edd3ec2aef
  gx := 0xaa87ca22be8b05378eb1c71ef320ad746e1d3b628ba79b9859f741e082542a385502f25dbf55296c3a545e3872760ab7
  gy := 0x3617de4a96262c6f5d9e98bf9292dc29f8f41dbd289a147ce9da3113b5f0b8c00a60b1ce1d7e819d7a431d7c90ea0e5f
  n := 0xffffffffffffffffffffffffffffffffffffffffffffffffc7634d81f4372ddf581a0db248b0a77aecec196accc52973
  size := 48

/-- A point in Jacobian coordinates. -/
structure Point where
  x : Nat
  y : Nat
  z : Nat
deriving DecidableEq, Inhabited

/-- The point at infinity. -/
def Point.infinity : Point := ⟨1, 1, 0⟩

namespace Curve

/-! ## 1. Points -/

/-- The generator of the curve. -/
def generator (c : Curve) : Point := ⟨c.gx, c.gy, 1⟩

/-- The curve equation for an affine point whose coordinates are remainders. -/
def contains (c : Curve) (x y : Nat) : Bool :=
  y * y % c.p == (x * x % c.p * x + (c.p - 3) * x + c.b) % c.p

/-- Reads the uncompressed form: the octet 4 and the two coordinates. -/
def decodePoint? (c : Curve) : Bytes → Option Point
  | 4 :: rest =>
    if rest.length ≠ 2 * c.size then none
    else
      let x := Bytes.toNat (rest.take c.size)
      let y := Bytes.toNat (rest.drop c.size)
      if x < c.p ∧ y < c.p ∧ c.contains x y then some ⟨x, y, 1⟩ else none
  | _ => none

/-- The affine coordinates of a point other than infinity. -/
def affine? (c : Curve) (q : Point) : Option (Nat × Nat) :=
  if q.z = 0 then none
  else
    let i := Modular.inverse c.p q.z
    let i2 := i * i % c.p
    some (q.x * i2 % c.p, q.y * i2 % c.p * i % c.p)

/-! ## 2. The group -/

/-- Twice a point. -/
def double (c : Curve) (q : Point) : Point :=
  if q.z = 0 then q
  else
    let p := c.p
    let delta := q.z * q.z % p
    let gamma := q.y * q.y % p
    let beta := q.x * gamma % p
    let alpha := 3 * (Modular.sub p q.x delta) * (q.x + delta) % p
    let x := Modular.sub p (alpha * alpha % p) (8 * beta % p)
    let z := Modular.sub p ((q.y + q.z) * (q.y + q.z) % p) ((gamma + delta) % p)
    let y := Modular.sub p (alpha * (Modular.sub p (4 * beta % p) x) % p) (8 * gamma * gamma % p)
    ⟨x, y, z⟩

/-- The sum of two points. -/
def add (c : Curve) (q r : Point) : Point :=
  if q.z = 0 then r
  else if r.z = 0 then q
  else
    let p := c.p
    let z1 := q.z * q.z % p
    let z2 := r.z * r.z % p
    let u1 := q.x * z2 % p
    let u2 := r.x * z1 % p
    let s1 := q.y * r.z % p * z2 % p
    let s2 := r.y * q.z % p * z1 % p
    let h := Modular.sub p u2 u1
    let t := Modular.sub p s2 s1
    if h = 0 then
      if t = 0 then c.double q else Point.infinity
    else
      let h2 := h * h % p
      let h3 := h2 * h % p
      let v := u1 * h2 % p
      let x := Modular.sub p (t * t % p) ((h3 + 2 * v) % p)
      let y := Modular.sub p (t * (Modular.sub p v x) % p) (s1 * h3 % p)
      ⟨x, y, q.z * r.z % p * h % p⟩

/-- Works through the bits of two scalars from number `bits - 1` down, on the sum so far. -/
def combineBits (c : Curve) (g q sum : Point) (u v : Nat) : (bits : Nat) → (acc : Point) → Point
  | 0, acc => acc
  | bits + 1, acc =>
    let twice := c.double acc
    let next :=
      match u.testBit bits, v.testBit bits with
      | true, true => c.add twice sum
      | true, false => c.add twice g
      | false, true => c.add twice q
      | false, false => twice
    combineBits c g q sum u v bits next

/-- The point `u · G + v · Q` for scalars below the group order. -/
def combine (c : Curve) (u v : Nat) (q : Point) : Point :=
  combineBits c c.generator q (c.add c.generator q) u v (8 * c.size) Point.infinity

/-- The point `k · G` for a scalar below the group order. -/
def scale (c : Curve) (k : Nat) : Point := c.combine k 0 Point.infinity

/-- The uncompressed form of a point other than infinity. -/
def encodePoint? (c : Curve) (q : Point) : Option Bytes :=
  (c.affine? q).map fun (x, y) => 4 :: (Bytes.ofNat c.size x ++ Bytes.ofNat c.size y)

end Curve

end PeerTrust.Weierstrass
