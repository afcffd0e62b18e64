import PeerTrust.Bytes

/-!
# DER, the one encoding of a value

Tag, length and content, where the length takes the fewest octets that hold it and tags fit into
one octet.

* `Der.encode` writes an element, `Der.read?` reads one off the front of a string;
* `read?_encode`: what was written is read back, whatever follows;
* a `Der.Reader` reads a structure field by field and fails as a whole; `Reader.field`,
  `Reader.within`, `Reader.explicit` and `Reader.complete` are its building blocks;
* `Der.natural?` and `Der.encodeNatural` are unsigned integers in the fewest octets.
-/

namespace PeerTrust.Der

/-! ## 1. Tags -/

/-- The tag of a truth value. -/
def tagBoolean : UInt8 := 0x01
/-- The tag of an integer. -/
def tagInteger : UInt8 := 0x02
/-- The tag of a string of bits. -/
def tagBits : UInt8 := 0x03
/-- The tag of a string of octets. -/
def tagOctets : UInt8 := 0x04
/-- The tag of the null value. -/
def tagNull : UInt8 := 0x05
/-- The tag of an object identifier. -/
def tagOid : UInt8 := 0x06
/-- The tag of an enumerated value. -/
def tagEnumerated : UInt8 := 0x0a
/-- The tag of a time with a year of two digits. -/
def tagUtcTime : UInt8 := 0x17
/-- The tag of a time with a year of four digits. -/
def tagGeneralizedTime : UInt8 := 0x18
/-- The tag of a sequence. -/
def tagSequence : UInt8 := 0x30
/-- The tag of a set. -/
def tagSet : UInt8 := 0x31

/-- A context-specific tag around a primitive content. -/
def tagImplicit (n : UInt8) : UInt8 := 0x80 ||| n

/-- A context-specific tag around further elements. -/
def tagExplicit (n : UInt8) : UInt8 := 0xa0 ||| n

/-! ## 2. Writing -/

/-- The length octets of a content. -/
def lengthOctets (n : Nat) : Bytes :=
  if n < 128 then [UInt8.ofNat n]
  else UInt8.ofNat (128 + Bytes.widthOf n) :: Bytes.ofNat (Bytes.widthOf n) n

/-- The encoding of a content under a tag. -/
def encode (tag : UInt8) (content : Bytes) : Bytes := tag :: (lengthOctets content.length ++ content)

/-- The content octets of an unsigned integer: a zero octet keeps the top bit clear. -/
def naturalOctets (n : Nat) : Bytes := Bytes.ofNat (n.log2 / 8 + 1 + if (n.log2 + 1) % 8 = 0 then 1 else 0) n

/-- The encoding of an unsigned integer. -/
def encodeNatural (n : Nat) : Bytes := encode tagInteger (naturalOctets n)

/-! ## 3. Reading -/

/-- Reads length octets off the front: at most four of them after the first, and no more than the
number needs. -/
def readLength? : Bytes → Option (Nat × Bytes)
  | [] => none
  | x :: rest =>
    if x < 128 then some (x.toNat, rest)
    else
      let width := x.toNat - 128
      let octets := rest.take width
      let n := Bytes.toNat octets
      if width ≤ 4 ∧ octets.length = width ∧ 128 ≤ n ∧ Bytes.widthOf n = width then
        some (n, rest.drop width)
      else none

/-- Reads one element off the front: its tag, its content and what follows it. -/
def read? : Bytes → Option (UInt8 × Bytes × Bytes)
  | [] => none
  | tag :: rest =>
    if tag &&& 0x1f = 0x1f then none
    else
      match readLength? rest with
      | none => none
      | some (n, body) =>
        let content := body.take n
        if content.length < n then none else some (tag, content, body.drop n)

theorem readLength?_lengthOctets {n : Nat} (small : n < 256 ^ 4) (rest : Bytes) :
    readLength? (lengthOctets n ++ rest) = some (n, rest) := by
  unfold lengthOctets
  split
  · rename_i short
    have octet : (UInt8.ofNat n).toNat = n := UInt8.toNat_ofNat_of_lt' (by have : UInt8.size = 256 := rfl; omega)
    have below : UInt8.ofNat n < 128 := by rw [UInt8.lt_iff_toNat_lt, octet]; simpa using short
    simp [readLength?, below, octet]
  · rename_i long
    have narrow : Bytes.widthOf n ≤ 4 := Bytes.widthOf_le small
    have octet : (UInt8.ofNat (128 + Bytes.widthOf n)).toNat = 128 + Bytes.widthOf n :=
      UInt8.toNat_ofNat_of_lt' (by have : UInt8.size = 256 := rfl; omega)
    have above : ¬ UInt8.ofNat (128 + Bytes.widthOf n) < 128 := by
      rw [UInt8.lt_iff_toNat_lt, octet]; simp
    have size : (Bytes.ofNat (Bytes.widthOf n) n).length = Bytes.widthOf n := Bytes.ofNat_length _ _
    have value : Bytes.toNat (Bytes.ofNat (Bytes.widthOf n) n) = n := by
      rw [Bytes.toNat_ofNat]; exact Nat.mod_eq_of_lt (Bytes.lt_pow_widthOf n)
    have width : 128 + Bytes.widthOf n - 128 = Bytes.widthOf n := by omega
    simp only [readLength?, List.cons_append, above, if_false, octet, width]
    rw [List.take_left' size, List.drop_left' size, value]
    simp [narrow, size]
    omega

theorem read?_encode {tag : UInt8} {content : Bytes} (low : tag &&& 0x1f ≠ 0x1f)
    (small : content.length < 256 ^ 4) (rest : Bytes) :
    read? (encode tag content ++ rest) = some (tag, content, rest) := by
  simp [read?, encode, low, readLength?_lengthOctets small]

/-- Reads a structure off the front of a string, or fails. -/
abbrev Reader (α : Type) := StateT Bytes Option α

namespace Reader

/-- The content of the next element, which has the given tag. -/
def field (tag : UInt8) : Reader Bytes := fun b =>
  match read? b with
  | some (t, content, rest) => if t = tag then some (content, rest) else none
  | none => none

/-- The content of the next element if it has the given tag; else nothing is read. -/
def optional (tag : UInt8) : Reader (Option Bytes) := fun b =>
  match b with
  | t :: _ => if t = tag then (field tag b).map fun (c, rest) => (some c, rest) else some (none, b)
  | [] => some (none, [])

/-- The tag and the content of the next element. -/
def element : Reader (UInt8 × Bytes) := fun b =>
  (read? b).map fun (t, content, rest) => ((t, content), rest)

/-- The octets of the next element, tag and length included, and its parts. -/
def raw : Reader (Bytes × UInt8 × Bytes) := fun b =>
  (read? b).map fun (t, content, rest) => ((b.take (b.length - rest.length), t, content), rest)

/-- The tag of the next element, if there is one. -/
def peek : Reader (Option UInt8) := fun b => some (b.head?, b)

/-- All that is left. -/
def remaining : Reader Bytes := fun b => some (b, b)

/-- Fails where a structure is not what it should be. -/
def check (ok : Bool) : Reader Unit := if ok then pure () else fun _ => none

/-- The value of an optional part, or a failure. -/
def expect {α : Type} (x : Option α) : Reader α := fun b => x.map (·, b)

/-- Runs a reader on a whole string; nothing may be left over. -/
def complete {α : Type} (r : Reader α) (b : Bytes) : Option α :=
  match r b with
  | some (x, []) => some x
  | _ => none

/-- Runs a reader on the content of the next element, which has the given tag. -/
def within {α : Type} (tag : UInt8) (r : Reader α) : Reader α := fun b =>
  match field tag b with
  | some (content, rest) => (complete r content).map (·, rest)
  | none => none

/-- Passes over context-specific elements whose number is below a bound; `fuel` bounds how many. -/
def skipBelow (n : UInt8) : (fuel : Nat) → Reader Unit
  | 0, b => some ((), b)
  | fuel + 1, b =>
    match b.head? with
    | some t =>
      if t &&& 0xc0 = 0x80 ∧ t &&& 0x1f < n then
        match read? b with
        | some (_, _, rest) => skipBelow n fuel rest
        | none => none
      else some ((), b)
    | none => some ((), b)

/-- The content of the context-specific element of a number, if it is next once those of lower
numbers are passed over; `constructed` tells which of the two forms it must have. -/
def tagged (n : UInt8) (constructed : Bool) : Reader (Option Bytes) := do
  let left ← remaining
  skipBelow n left.length
  match ← peek with
  | some t =>
    if t &&& 0xdf = tagImplicit n then
      some <$> field (if constructed then tagExplicit n else tagImplicit n)
    else return none
  | none => return none

/-- An optional part under an explicit tag. -/
def explicit {α : Type} (n : UInt8) (r : Reader α) : Reader (Option α) := do
  match ← tagged n true with
  | some content => some <$> expect (complete r content)
  | none => return none

/-- Reads structures one after the other until nothing is left; `fuel` bounds their number. -/
def manyFuel {α : Type} (r : Reader α) : (fuel : Nat) → Bytes → Option (List α)
  | _, [] => some []
  | 0, _ => none
  | fuel + 1, b =>
    match r b with
    | none => none
    | some (x, rest) => (manyFuel r fuel rest).map (x :: ·)

/-- Reads structures one after the other until nothing is left. -/
def many {α : Type} (r : Reader α) (b : Bytes) : Option (List α) := manyFuel r b.length b

end Reader

/-! ## 4. Integers -/

/-- Whether integer octets are as few as they can be: at least one, and the first nine bits are not
all alike. -/
def isMinimalInteger : Bytes → Bool
  | [] => false
  | [_] => true
  | x :: y :: _ => !((x = 0 && y < 128) || (x = 255 && 128 ≤ y))

/-- The value of integer octets that denote an unsigned number in the fewest octets. -/
def natural? (b : Bytes) : Option Nat :=
  if isMinimalInteger b && b.head?.any (· < 128) then some (Bytes.toNat b) else none

end PeerTrust.Der
