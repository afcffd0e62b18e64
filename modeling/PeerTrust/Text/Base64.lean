import PeerTrust.Bytes

/-!
# Base64

The standard alphabet in its canonical form: padded to whole groups of four, and with the bits
that no octet takes up set to zero.

* `Base64.encode` writes, `Base64.decode?` reads;
* `decode?_encode`: what was written is read back.
-/

namespace PeerTrust.Base64

/-- The character for six bits. -/
def digit (n : Nat) : Char :=
  if n < 26 then Char.ofNat (65 + n)
  else if n < 52 then Char.ofNat (71 + n)
  else if n < 62 then Char.ofNat (n - 4)
  else if n = 62 then '+' else '/'

/-- The six bits of a character. -/
def value? (c : Char) : Option Nat :=
  if 'A' ≤ c ∧ c ≤ 'Z' then some (c.toNat - 65)
  else if 'a' ≤ c ∧ c ≤ 'z' then some (c.toNat - 71)
  else if '0' ≤ c ∧ c ≤ '9' then some (c.toNat + 4)
  else if c = '+' then some 62
  else if c = '/' then some 63
  else none

/-- Writes octets in groups of four characters. -/
def encode : Bytes → List Char
  | [] => []
  | [x] => [digit (x.toNat / 4), digit (x.toNat % 4 * 16), '=', '=']
  | [x, y] =>
    [digit (x.toNat / 4), digit (x.toNat % 4 * 16 + y.toNat / 16), digit (y.toNat % 16 * 4), '=']
  | x :: y :: z :: rest =>
    digit (x.toNat / 4) :: digit (x.toNat % 4 * 16 + y.toNat / 16) ::
    digit (y.toNat % 16 * 4 + z.toNat / 64) :: digit (z.toNat % 64) :: encode rest

/-- Reads groups of four characters; only the last one may be padded. -/
def decode? : List Char → Option Bytes
  | [] => some []
  | [a, b, '=', '='] => do
    let a ← value? a
    let b ← value? b
    if b % 16 = 0 then some [UInt8.ofNat (4 * a + b / 16)] else none
  | [a, b, c, '='] => do
    let a ← value? a
    let b ← value? b
    let c ← value? c
    if c % 4 = 0 then
      some [UInt8.ofNat (4 * a + b / 16), UInt8.ofNat (b % 16 * 16 + c / 4)]
    else none
  | a :: b :: c :: d :: rest => do
    let a ← value? a
    let b ← value? b
    let c ← value? c
    let d ← value? d
    let tail ← decode? rest
    return UInt8.ofNat (4 * a + b / 16) :: UInt8.ofNat (b % 16 * 16 + c / 4) ::
      UInt8.ofNat (c % 4 * 64 + d) :: tail
  | _ => none

theorem value?_digit : ∀ n < 64, value? (digit n) = some n := by decide

theorem digit_ne_pad : ∀ n < 64, digit n ≠ '=' := by decide

/-- Reading undoes writing. -/
theorem decode?_encode (b : Bytes) : decode? (encode b) = some b := by
  fun_induction encode b with
  | case1 => rfl
  | case2 x =>
    have hx := x.toNat_lt
    simp [decode?, value?_digit (x.toNat / 4) (by omega), value?_digit (x.toNat % 4 * 16) (by omega)]
    apply UInt8.toNat_inj.1
    simp
    omega
  | case3 x y =>
    have hx := x.toNat_lt
    have hy := y.toNat_lt
    have hc := digit_ne_pad (y.toNat % 16 * 4) (by omega)
    rw [decode?.eq_3 _ _ _ (fun h => hc h)]
    simp [value?_digit (x.toNat / 4) (by omega), value?_digit (x.toNat % 4 * 16 + y.toNat / 16) (by omega),
      value?_digit (y.toNat % 16 * 4) (by omega)]
    constructor <;> apply UInt8.toNat_inj.1 <;> simp <;> omega
  | case4 x y z rest ih =>
    have hx := x.toNat_lt
    have hy := y.toNat_lt
    have hz := z.toNat_lt
    have hd := digit_ne_pad (z.toNat % 64) (by omega)
    rw [decode?.eq_4 _ _ _ _ _ (fun _ h _ => hd h) (fun h _ => hd h)]
    simp [value?_digit (x.toNat / 4) (by omega), value?_digit (x.toNat % 4 * 16 + y.toNat / 16) (by omega),
      value?_digit (y.toNat % 16 * 4 + z.toNat / 64) (by omega), value?_digit (z.toNat % 64) (by omega), ih]
    refine ⟨?_, ?_, ?_⟩ <;> apply UInt8.toNat_inj.1 <;> simp <;> omega

end PeerTrust.Base64
