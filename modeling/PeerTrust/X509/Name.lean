import PeerTrust.Asn1.Element

/-!
# Names

A distinguished name is a sequence of sets of attributes. Two names are the same when their octets
are, so a name is kept together with them.

* `Name.read?` reads a name; a set that cannot be read ends it, and its octets end there too;
* `Name.commonName?` is the text of the first common name;
* `GeneralName` is the choice of names that extensions use.
-/

namespace PeerTrust.X509

open Asn1

/-- One attribute of a name. -/
structure Attribute where
  oid : Oid
  value : Element
deriving DecidableEq, Repr, Inhabited

/-- A distinguished name: its octets and the attributes in order. -/
structure Name where
  raw : Bytes
  attributes : List Attribute
deriving DecidableEq, Repr, Inhabited

namespace Name

/-- Reads one attribute. -/
def attribute? (b : Bytes) : Option (Attribute × Bytes) :=
  match Element.sequence? b with
  | none => none
  | some (e, rest) =>
    match Element.oid? e.content with
    | none => none
    | some (oid, rest') => (Element.read? rest').map fun (value, _) => (⟨oid, value⟩, rest)

/-- Reads a set of at least one attribute. -/
def attributeSet? (b : Bytes) : Option (List Attribute × Bytes) :=
  match Element.container? 17 b with
  | none => none
  | some (e, rest) =>
    match (Element.many attribute? e.content).1 with
    | [] => none
    | set => some (set, rest)

/-- Reads a name. -/
def read? (b : Bytes) : Option (Name × Bytes) :=
  match Element.sequence? b with
  | none => none
  | some (e, rest) =>
    let (sets, left) := Element.many attributeSet? e.content
    some (⟨e.raw.take (e.raw.length - left.length), sets.flatten⟩, rest)

/-- The text of the first common name, if it is of a kind that holds text. -/
def commonName? (n : Name) : Option String :=
  match n.attributes.find? (·.oid = Oid.commonName) with
  | none => none
  | some a => Element.text? a.value

end Name

/-- A name of one of the kinds that extensions use; of most only the kind matters here. -/
inductive GeneralName where
  | uri (text : String)
  | other
deriving DecidableEq, Repr, Inhabited

namespace GeneralName

/-- Reads a general name. A text that is not UTF-8 is passed over as a name of no use, a directory
name or an identifier that cannot be read is an error. -/
def read? (b : Bytes) : Option (GeneralName × Bytes) :=
  match Element.read? b with
  | none => none
  | some (e, rest) =>
    if e.tagClass ≠ .contextSpecific then none
    else
      match e.number with
      | 0 => (Element.oid? e.content).map fun _ => (.other, rest)
      | 4 =>
        match Name.read? e.content with
        | some (_, []) => some (.other, rest)
        | _ => none
      | 6 => some (((Bytes.toText? e.content).map uri).getD other, rest)
      | 1 | 2 | 3 | 5 | 7 | 8 => some (.other, rest)
      | _ => none

/-- The locations among names, in order. -/
def uris (names : List GeneralName) : List String :=
  names.filterMap fun
    | .uri text => some text
    | .other => none

end GeneralName

end PeerTrust.X509
