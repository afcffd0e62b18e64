import PeerTrust.Bytes

/-!
# Punycode

The part of an international label after `xn--`: its ASCII characters, a hyphen, and where the
other characters go. Each of these is one number, the distance from the place of the one before in
the order of code point first and position second; numbers are written with digits whose weight
adapts to the numbers before.

* `Punycode.encode` writes the characters of a label, `Punycode.decode?` reads them.
-/

namespace PeerTrust.Punycode

/-! ## 1. Digits -/

/-- The digit of a value below 36. -/
def digit (n : Nat) : Char := if n < 26 then Char.ofNat (97 + n) else Char.ofNat (22 + n)

/-- The value of a digit of either case. -/
def value? (c : Char) : Option Nat :=
  if 'a' ≤ c ∧ c ≤ 'z' then some (c.toNat - 97)
  else if 'A' ≤ c ∧ c ≤ 'Z' then some (c.toNat - 65)
  else if '0' ≤ c ∧ c ≤ '9' then some (c.toNat - 22)
  else none

/-- The least value of a digit that is not the last one, at a place. -/
def threshold (place bias : Nat) : Nat :=
  if place ≤ bias then 1 else if bias + 26 ≤ place then 26 else place - bias

/-- Divides a distance until it is small; `fuel` bounds the divisions. -/
def settle : (fuel delta k : Nat) → Nat
  | 0, delta, k => k + 36 * delta / (delta + 38)
  | fuel + 1, delta, k =>
    if 455 < delta then settle fuel (delta / 35) (k + 36) else k + 36 * delta / (delta + 38)

/-- The bias after a distance; `count` is the number of characters placed so far. -/
def adapt (delta count : Nat) (first : Bool) : Nat :=
  let d := if first then delta / 700 else delta / 2
  settle d (d + d / count) 0

/-- The digits of a distance; `fuel` bounds their number. -/
def encodeNumber : (fuel bias place q : Nat) → List Char
  | 0, _, _, _ => []
  | fuel + 1, bias, place, q =>
    let t := threshold place bias
    if q < t then [digit q]
    else digit (t + (q - t) % (36 - t)) :: encodeNumber fuel bias (place + 36) ((q - t) / (36 - t))

/-- Reads the digits of a distance. -/
def decodeNumber? (bias : Nat) : (place weight : Nat) → List Char → Option (Nat × List Char)
  | _, _, [] => none
  | place, weight, c :: rest => do
    let d ← value? c
    if d < threshold place bias then some (d * weight, rest)
    else
      let (n, rest) ← decodeNumber? bias (place + 36) (weight * (36 - threshold place bias)) rest
      return (d * weight + n, rest)

/-! ## 2. Labels -/

/-- The distances written so far and what the next one depends on. -/
structure Writer where
  written : List Char
  delta : Nat
  bias : Nat
  placed : Nat
deriving DecidableEq, Repr, Inhabited

/-- Passes over one character of the label while the characters of code point `m` are placed. -/
def Writer.pass (basic m : Nat) (w : Writer) (c : Char) : Writer :=
  if c.toNat < m then { w with delta := w.delta + 1 }
  else if c.toNat = m then
    { written := w.written ++ encodeNumber (w.delta + 1) w.bias 36 w.delta
      delta := 0
      bias := adapt w.delta (w.placed + 1) (w.placed = basic)
      placed := w.placed + 1 }
  else w

/-- Places the characters of the given code points, which rise. -/
def place (label : List Char) (basic : Nat) : (points : List Nat) → (next : Nat) → Writer → Writer
  | [], _, w => w
  | m :: points, next, w =>
    let w := label.foldl (Writer.pass basic m) { w with delta := w.delta + (m - next) * (w.placed + 1) }
    place label basic points (m + 1) { w with delta := w.delta + 1 }

/-- Writes the characters of a label. -/
def encode (label : List Char) : List Char :=
  let ascii := label.filter (·.toNat < 128)
  let points := (((label.map Char.toNat).filter (128 ≤ ·)).mergeSort).eraseDups
  let w := place label ascii.length points 128 ⟨[], 0, 72, ascii.length⟩
  (if ascii = [] then [] else ascii ++ ['-']) ++ w.written

/-- Reads distances one after the other and places a character for each; `fuel` bounds their
number. -/
def insertAll? : (fuel point position bias : Nat) → (first : Bool) → (placed digits : List Char) →
    Option (List Char)
  | _, _, _, _, _, placed, [] => some placed
  | 0, _, _, _, _, _, _ :: _ => none
  | fuel + 1, point, position, bias, first, placed, digits =>
    match decodeNumber? bias 36 1 digits with
    | none => none
    | some (delta, rest) =>
      let count := placed.length + 1
      let point := point + (position + delta) / count
      let position := (position + delta) % count
      if point < 0x110000 ∧ (Char.ofNat point).toNat = point then
        insertAll? fuel point (position + 1) (adapt delta count first) false
          (placed.take position ++ Char.ofNat point :: placed.drop position) rest
      else none

/-- Reads the characters of a label. -/
def decode? (cs : List Char) : Option (List Char) :=
  let (back, front) := (cs.reverse.takeWhile (· ≠ '-'), cs.reverse.dropWhile (· ≠ '-'))
  let ascii := (front.drop 1).reverse
  if ascii.all (·.toNat < 128) then
    insertAll? back.length 128 0 72 true ascii back.reverse
  else none

end PeerTrust.Punycode
