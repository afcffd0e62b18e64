import PeerTrust.Asn1.Oid

/-!
# Elements as certificates and CRLs are read

Certificates in the wild are read more loosely than they are written: a length may take more octets
than it needs, a tag may be of any number, and what follows the part that is understood is left
alone.

* `Element.read?` reads one element off the front of a string;
* `Element.container?` reads an element that holds others and gives its content;
* `Element.many` reads elements while they can be read;
* `Element.bits?`, `Element.octets?` and `Element.oid?` are contents of common kinds.

Universal types are told apart by tag number alone, as the readers of this format do.
-/

namespace PeerTrust.Asn1

/-- The class of a tag. -/
inductive TagClass where
  | universal
  | application
  | contextSpecific
  | privateUse
deriving DecidableEq, Repr, Inhabited

/-- The class in the top two bits of an identifier octet. -/
def TagClass.ofOctet (x : UInt8) : TagClass :=
  if x < 64 then .universal
  else if x < 128 then .application
  else if x < 192 then .contextSpecific
  else .privateUse

/-- One element: its tag, its content, and all its octets. -/
structure Element where
  tagClass : TagClass
  constructed : Bool
  number : Nat
  content : Bytes
  raw : Bytes
deriving DecidableEq, Repr, Inhabited

namespace Element

/-! ## 1. Reading one element -/

/-- Reads the later octets of a long tag number, at most five of them. -/
def readNumber? : (fuel n : Nat) → Bytes → Option (Nat × Bytes)
  | fuel + 1, n, x :: rest =>
    let m := (128 * n + x.toNat % 128) % 2 ^ 32
    if x < 128 then some (m, rest) else readNumber? fuel m rest
  | _, _, _ => none

/-- Reads identifier octets. -/
def readTag? : Bytes → Option ((TagClass × Bool × Nat) × Bytes)
  | [] => none
  | x :: rest =>
    let made (n : Nat) := (TagClass.ofOctet x, x &&& 0x20 != 0, n)
    if x &&& 0x1f = 0x1f then (readNumber? 5 0 rest).map fun (n, rest) => (made n, rest)
    else some (made (x.toNat % 32), rest)

/-- Reads length octets of a definite length, in as many octets as the writer pleased. -/
def readLength? : Bytes → Option (Nat × Bytes)
  | [] => none
  | x :: rest =>
    if x < 128 then some (x.toNat, rest)
    else
      let width := x.toNat - 128
      let n := Bytes.toNat (rest.take width)
      if width = 0 ∨ width = 127 ∨ rest.length < width ∨ 2 ^ 64 ≤ n then none
      else some (n, rest.drop width)

/-- Reads a tag and a length off the front. -/
def readHeader? (b : Bytes) : Option ((TagClass × Bool × Nat) × Nat × Bytes) :=
  match readTag? b with
  | none => none
  | some (tag, rest) => (readLength? rest).map fun (n, rest) => (tag, n, rest)

/-- Reads one element off the front. -/
def read? (b : Bytes) : Option (Element × Bytes) :=
  match readHeader? b with
  | none => none
  | some ((tagClass, constructed, number), n, body) =>
    if body.length < n then none
    else
      some ({ tagClass, constructed, number, content := body.take n
              raw := b.take (b.length - body.length + n) }, body.drop n)

/-- Reads an element that holds others, of the given number. -/
def container? (number : Nat) (b : Bytes) : Option (Element × Bytes) :=
  match read? b with
  | some (e, rest) => if e.constructed ∧ e.number = number then some (e, rest) else none
  | none => none

/-- Reads a sequence. -/
def sequence? (b : Bytes) : Option (Element × Bytes) := container? 16 b

/-- Reads elements of one kind while they can be read, and gives what is left; `fuel` bounds their
number. -/
def manyFuel {α : Type} (r : Bytes → Option (α × Bytes)) : (fuel : Nat) → Bytes → List α × Bytes
  | 0, b => ([], b)
  | fuel + 1, b =>
    match r b with
    | none => ([], b)
    | some (x, rest) => let (xs, left) := manyFuel r fuel rest; (x :: xs, left)

/-- Reads elements of one kind while they can be read, and gives what is left. -/
def many {α : Type} (r : Bytes → Option (α × Bytes)) (b : Bytes) : List α × Bytes :=
  manyFuel r b.length b

/-- Reads elements of one kind until nothing is left. -/
def all? {α : Type} (r : Bytes → Option (α × Bytes)) (b : Bytes) : Option (List α) :=
  match many r b with
  | (xs, []) => some xs
  | _ => none

/-- Reads the next element if it is the context-specific one of this number. A universal or other
element of this number is an error, and so is a string that does not begin with an element. -/
def tagged? (number : Nat) (b : Bytes) : Option (Option Bytes × Bytes) :=
  match b with
  | [] => some (none, [])
  | _ =>
    match read? b with
    | none => none
    | some (e, rest) =>
      if e.number ≠ number then some (none, b)
      else if e.tagClass = .contextSpecific then some (some e.content, rest)
      else none

/-! ## 2. Contents -/

/-- An object identifier. -/
def oid? (b : Bytes) : Option (Oid × Bytes) :=
  match read? b with
  | some (e, rest) => if e.number = 6 ∧ !e.constructed then some (⟨e.content⟩, rest) else none
  | none => none

/-- The number of zero bits at the end of an octet, eight for zero. -/
def trailingZeros (x : UInt8) : Nat :=
  ((List.range 8).find? fun i => x.toNat.testBit i).getD 8

/-- The octets of a bit string whose unused bits are zero. -/
def bitsOfContent? : Bytes → Option Bytes
  | [] => none
  | [unused] => if unused = 0 then some [] else none
  | unused :: data =>
    if trailingZeros (data.getLast?.getD 0) < unused.toNat then none else some data

/-- A bit string. -/
def bits? (b : Bytes) : Option (Bytes × Bytes) :=
  match read? b with
  | some (e, rest) =>
    if e.number = 3 ∧ !e.constructed then (bitsOfContent? e.content).map (·, rest) else none
  | none => none

/-- A string of octets. -/
def octets? (b : Bytes) : Option (Bytes × Bytes) :=
  match read? b with
  | some (e, rest) => if e.number = 4 ∧ !e.constructed then some (e.content, rest) else none
  | none => none

/-- Whether a text is held by octets, for the four kinds of string that are read as UTF-8. -/
def text? (e : Element) : Option String :=
  if e.number = 12 ∨ e.number = 18 ∨ e.number = 19 ∨ e.number = 22 then Bytes.toText? e.content
  else none

end Element

end PeerTrust.Asn1
