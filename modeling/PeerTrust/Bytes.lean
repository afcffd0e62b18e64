/-!
# Octet strings

Everything that is read from a file, a certificate or the network is a list of octets.

* `Bytes.ofText` and `Bytes.toText?` pass between texts and their UTF-8 octets;
* `Bytes.toHex` and `Bytes.ofHex?` are the lower-case hexadecimal form, two digits an octet;
* `Bytes.toNat` and `Bytes.ofNat` read and write an unsigned number, most significant octet first;
  `toNat_ofNat`: what was written in enough octets is read back;
* `Bytes.chunks` cuts a string into blocks of one size, the last one possibly shorter.
-/

namespace PeerTrust

/-- A string of octets. -/
abbrev Bytes := List UInt8

namespace Bytes

/-! ## 1. Text -/

/-- The UTF-8 octets of a text. -/
def ofText (s : String) : Bytes := s.toUTF8.data.toList

/-- The text whose UTF-8 octets these are, if there is one. -/
def toText? (b : Bytes) : Option String := String.fromUTF8? ⟨b.toArray⟩

/-! ## 2. Hexadecimal -/

/-- The lower-case hexadecimal digit of a number below sixteen. -/
def hexDigit (n : Nat) : Char :=
  if n < 10 then Char.ofNat (48 + n) else Char.ofNat (87 + n)

/-- The value of a hexadecimal digit of either case. -/
def hexValue? (c : Char) : Option Nat :=
  if '0' ≤ c ∧ c ≤ '9' then some (c.toNat - 48)
  else if 'a' ≤ c ∧ c ≤ 'f' then some (c.toNat - 87)
  else if 'A' ≤ c ∧ c ≤ 'F' then some (c.toNat - 55)
  else none

/-- The two digits of one octet. -/
def hexPair (x : UInt8) : List Char := [hexDigit (x.toNat / 16), hexDigit (x.toNat % 16)]

/-- Lower-case hexadecimal, two digits for each octet. -/
def toHex (b : Bytes) : String := String.ofList (b.flatMap hexPair)

/-- Reads pairs of hexadecimal digits; an odd digit at the end is refused. -/
def ofHexDigits? : List Char → Option Bytes
  | [] => some []
  | [_] => none
  | h :: l :: rest => do
    let hi ← hexValue? h
    let lo ← hexValue? l
    let tail ← ofHexDigits? rest
    return UInt8.ofNat (16 * hi + lo) :: tail

/-- The octets that a hexadecimal text stands for. -/
def ofHex? (s : String) : Option Bytes := ofHexDigits? s.toList

/-! ## 3. Numbers -/

-- A power of a number is that of the core library, also where Mathlib knows of others.
attribute [default_instance high, instance (high)] instPowNat

/-- The unsigned number that the octets denote, most significant first. -/
def toNat (b : Bytes) : Nat := b.foldl (fun n x => 256 * n + x.toNat) 0

/-- The low `width` octets of a number, least significant first. -/
def ofNatLow : (width n : Nat) → Bytes
  | 0, _ => []
  | width + 1, n => UInt8.ofNat (n % 256) :: ofNatLow width (n / 256)

/-- The low `width` octets of a number, most significant first. -/
def ofNat (width n : Nat) : Bytes := (ofNatLow width n).reverse

theorem ofNatLow_length (width n : Nat) : (ofNatLow width n).length = width := by
  induction width generalizing n with
  | zero => rfl
  | succ width ih => simp [ofNatLow, ih]

theorem ofNat_length (width n : Nat) : (ofNat width n).length = width := by
  simp [ofNat, ofNatLow_length]

/-- The unsigned number of octets with the least significant first. -/
theorem toNat_reverse_cons (x : UInt8) (b : Bytes) :
    toNat (x :: b).reverse = 256 * toNat b.reverse + x.toNat := by
  simp [toNat, List.foldl_append]

theorem toNat_ofNat (width n : Nat) : toNat (ofNat width n) = n % 256 ^ width := by
  induction width generalizing n with
  | zero => simp [ofNat, ofNatLow, toNat, Nat.mod_one]
  | succ width ih =>
    have low : toNat (ofNatLow width (n / 256)).reverse = n / 256 % 256 ^ width := ih (n / 256)
    rw [ofNat, ofNatLow, toNat_reverse_cons, low, Nat.pow_succ', Nat.mod_mul]
    simp [Nat.add_comm]

/-- The number of octets that a number needs, none for zero. -/
def widthOf (n : Nat) : Nat := if n = 0 then 0 else n.log2 / 8 + 1

theorem lt_pow_widthOf (n : Nat) : n < 256 ^ widthOf n := by
  unfold widthOf
  split
  · subst n; decide
  · have below : n < 2 ^ (n.log2 + 1) := Nat.lt_log2_self
    have wide : 2 ^ (n.log2 + 1) ≤ 2 ^ (8 * (n.log2 / 8 + 1)) :=
      Nat.pow_le_pow_right (by omega) (by omega)
    rw [Nat.pow_mul] at wide
    exact Nat.lt_of_lt_of_le below wide

theorem widthOf_le {n width : Nat} (h : n < 256 ^ width) : widthOf n ≤ width := by
  unfold widthOf
  split
  · omega
  · rename_i pos
    rw [show (256 : Nat) = 2 ^ 8 from rfl, ← Nat.pow_mul] at h
    have := (Nat.log2_lt pos).2 h
    omega

/-- The unsigned number that the octets denote, least significant first. -/
def toNatLow (b : Bytes) : Nat := b.foldr (fun x n => 256 * n + x.toNat) 0

/-! ## 4. Cutting and combining -/

/-- Blocks of `size` octets; the last one holds what is left over. `fuel` bounds their number. -/
def chunksFuel (size : Nat) : (fuel : Nat) → Bytes → List Bytes
  | 0, _ => []
  | _, [] => []
  | fuel + 1, b => b.take size :: chunksFuel size fuel (b.drop size)

/-- Blocks of `size` octets; the last one holds what is left over. -/
def chunks (size : Nat) (b : Bytes) : List Bytes := chunksFuel size b.length b

/-- The octet-wise exclusive or, as long as the shorter string. -/
def xor (a b : Bytes) : Bytes := List.zipWith (· ^^^ ·) a b

end Bytes

end PeerTrust
