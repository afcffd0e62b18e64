/-!
# Numbers of double precision in the fewest digits

* `Binary` is a significand with a power of two, `Binary.ofDecimal?` the nearest one to a decimal
  number, ties going to the even significand;
* `Binary.roundsTo` tells the decimal numbers that lie as near to one as to no other;
* `Binary.shortest` is the decimal number of fewest digits among them, the nearest of those;
* `Binary.toText` writes it: plainly between `0.00001` and `10000000000000000`, else with an
  exponent that has a sign.
-/

namespace PeerTrust

/-- The number `significand * 2 ^ exponent`. -/
structure Binary where
  significand : Nat
  exponent : Int
deriving DecidableEq, Repr, Inhabited

namespace Binary

/-! ## 1. From decimal to binary -/

/-- The numerator that a power of a base adds. -/
def above (base : Nat) (e : Int) : Nat := base ^ e.toNat

/-- The denominator that a power of a base adds. -/
def below (base : Nat) (e : Int) : Nat := base ^ (-e).toNat

/-- The nearest whole number to a fraction, an even one where two are as near. -/
def roundEven (num den : Nat) : Nat :=
  let q := num / den
  let r := num % den
  if 2 * r < den ∨ (2 * r = den ∧ q % 2 = 0) then q else q + 1

/-- The nearest number to a fraction with at most 53 bits in its significand. -/
def ofFraction (num den : Nat) : Binary :=
  let guess := max (-1074) ((num.log2 : Int) - den.log2 - 53)
  let rounded (q : Int) : Nat := roundEven (num * below 2 q) (den * above 2 q)
  let q := if (num * below 2 guess) / (den * above 2 guess) < 2 ^ 53 then guess else guess + 1
  if rounded q = 2 ^ 53 then ⟨2 ^ 52, q + 1⟩ else ⟨rounded q, q⟩

/-- The nearest number to `n * 10 ^ e`, unless it is too large. -/
def ofDecimal? (n : Nat) (e : Int) : Option Binary :=
  let digits : Int := (Nat.toDigits 10 n).length
  if n = 0 ∨ digits + e < -330 then some ⟨0, -1074⟩
  else if 320 < digits + e then none
  else
    let b := ofFraction (n * above 10 e) (below 10 e)
    if 971 < b.exponent then none else some b

/-! ## 2. From binary to decimal -/

/-- Compares `a * 10 ^ p` with `b * 2 ^ q`. -/
def compareDecimal (a : Nat) (p : Int) (b : Nat) (q : Int) : Ordering :=
  compare (a * above 10 p * below 2 q) (b * above 2 q * below 10 p)

/-- Whether `a * 10 ^ p` lies as near to a number as to no other, or half way with an even
significand. -/
def roundsTo (x : Binary) (a : Nat) (p : Int) : Bool :=
  let m := x.significand
  let low := if m = 2 ^ 52 ∧ x.exponent ≠ -1074 then 4 * m - 1 else 4 * m - 2
  let fromBelow := compareDecimal a p low (x.exponent - 2)
  let fromAbove := compareDecimal a p (4 * m + 2) (x.exponent - 2)
  (fromBelow == .gt || (fromBelow == .eq && m % 2 == 0)) &&
  (fromAbove == .lt || (fromAbove == .eq && m % 2 == 0))

/-- The greatest `a` with `a * 10 ^ p` at most a number. -/
def floorAt (x : Binary) (p : Int) : Nat :=
  (x.significand * above 2 x.exponent * below 10 p) / (above 10 p * below 2 x.exponent)

/-- The number of digits before the point, or less the zeros right after it; `fuel` bounds the
search from a bound above. -/
def magnitude (x : Binary) : (fuel : Nat) → (e : Int) → Int
  | 0, e => e
  | fuel + 1, e => if floorAt x (e - 1) = 0 then magnitude x fuel (e - 1) else e

/-- The nearer of the two neighbours on the grid of `10 ^ p` that round to a number. -/
def onGrid? (x : Binary) (p : Int) : Option (Nat × Int) :=
  let a := floorAt x p
  match roundsTo x a p, roundsTo x (a + 1) p with
  | true, false => some (a, p)
  | false, true => some (a + 1, p)
  | false, false => none
  | true, true =>
    match compareDecimal (2 * a + 1) p (2 * x.significand) x.exponent with
    | .lt => some (a + 1, p)
    | .gt => some (a, p)
    | .eq => some (a + a % 2, p)

/-- The decimal number of fewest digits that rounds to a number: the digits, and the power of ten
that they count. -/
def shortest (x : Binary) : Nat × Int :=
  if x.significand = 0 then (0, 0)
  else
    let top := magnitude x 700 310
    ((List.range 18).findSome? fun (n : Nat) => onGrid? x (top - n)).getD (0, 0)

/-- Digits without the zeros at their end, and how many of those there were. -/
def stripZeros (digits : List Char) : List Char × Nat :=
  let kept := (digits.reverse.dropWhile (· = '0')).reverse
  (kept, digits.length - kept.length)

/-- The written form. -/
def toText (x : Binary) : String :=
  let (n, p) := x.shortest
  if n = 0 then "0.0"
  else
    let (digits, zeros) := stripZeros (Nat.toDigits 10 n)
    let p := p + zeros
    let point : Int := digits.length + p
    let zerosOf (k : Int) : List Char := List.replicate k.toNat '0'
    if 0 ≤ p ∧ point ≤ 16 then String.ofList (digits ++ zerosOf p) ++ ".0"
    else if 0 < point ∧ point ≤ 16 then
      String.ofList (digits.take point.toNat ++ '.' :: digits.drop point.toNat)
    else if -5 < point ∧ point ≤ 0 then
      String.ofList ('0' :: '.' :: zerosOf (-point) ++ digits)
    else
      let fraction := if digits.length = 1 then [] else '.' :: digits.drop 1
      String.ofList (digits.take 1 ++ fraction) ++ (if 0 < point then "e+" else "e") ++
        toString (point - 1)

end Binary

end PeerTrust
