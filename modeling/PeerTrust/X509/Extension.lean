import PeerTrust.X509.Name

/-!
# Extensions

* `Extension.list?` reads the extensions of a certificate, a CRL or an entry of one;
* `accessDescriptions?`, `distributionPoints?`, `IssuingDistributionPoint.ofValue?`,
  `issuesCertificates?` and `purposes?` read the contents that matter here. What follows the part
  of a content that is understood is left alone, and a content that cannot be read is as good as
  absent.
-/

namespace PeerTrust.X509

open Asn1

/-- An extension: what it is, whether it must be understood, and its content. -/
structure Extension where
  oid : Oid
  critical : Bool
  value : Bytes
deriving DecidableEq, Repr, Inhabited

namespace Extension

/-- The flag before a content; it may be absent. -/
def flag (b : Bytes) : Bool × Bytes :=
  match Element.read? b with
  | some (e, rest) =>
    match e.content with
    | [x] => if e.number = 1 ∧ !e.constructed then (x != 0, rest) else (false, b)
    | _ => (false, b)
  | none => (false, b)

/-- Reads one extension. -/
def read? (b : Bytes) : Option (Extension × Bytes) :=
  match Element.sequence? b with
  | none => none
  | some (e, rest) =>
    match Element.oid? e.content with
    | none => none
    | some (oid, rest') =>
      let (critical, rest'') := flag rest'
      (Element.octets? rest'').map fun (value, _) => (⟨oid, critical, value⟩, rest)

/-- Reads a sequence of extensions, and the rest after it. -/
def sequence? (b : Bytes) : Option (List Extension × Bytes) :=
  match Element.sequence? b with
  | none => none
  | some (e, rest) => (Element.all? read? e.content).map (·, rest)

/-- Reads the extensions at the end of a structure, under a tag of the given number. Its length is
not looked at, for what is inside has to reach the end in any case. -/
def list? (number : Nat) (b : Bytes) : Option (List Extension) :=
  match b with
  | [] => some []
  | _ =>
    match Element.readHeader? b with
    | none => none
    | some ((_, _, n), _, body) =>
      if n ≠ number then none
      else
        match sequence? body with
        | some (xs, []) => some xs
        | _ => none

end Extension

/-! ## 1. Where services are found -/

/-- A service and where it is found. -/
structure AccessDescription where
  method : Oid
  location : GeneralName
deriving DecidableEq, Repr, Inhabited

/-- Reads one service. -/
def AccessDescription.read? (b : Bytes) : Option (AccessDescription × Bytes) :=
  match Element.sequence? b with
  | none => none
  | some (e, rest) =>
    match Element.oid? e.content with
    | none => none
    | some (method, rest') =>
      (GeneralName.read? rest').map fun (location, _) => (⟨method, location⟩, rest)

/-- The services that an extension lists. -/
def accessDescriptions? (value : Bytes) : Option (List AccessDescription) :=
  (Element.sequence? value).bind fun (e, _) => Element.all? AccessDescription.read? e.content

/-! ## 2. Distribution points -/

/-- The names of a distribution point; a name relative to the issuer has none. -/
def distributionPointNames? (b : Bytes) : Option (List GeneralName) :=
  match Element.readHeader? b with
  | none => none
  | some ((_, _, number), _, body) =>
    if number = 0 then
      match (Element.many GeneralName.read? body).1 with
      | [] => none
      | names => some names
    else if number = 1 then (Name.attributeSet? body).map fun _ => []
    else none

/-- The reasons that a restriction names, of which only their presence matters. -/
def reasons? (b : Bytes) : Option Unit := (Element.bitsOfContent? b).map fun _ => ()

/-- An optional part that must be readable where it is present. -/
def part? {α : Type} (read : Bytes → Option α) (number : Nat) (b : Bytes) :
    Option (Option α × Bytes) :=
  match Element.tagged? number b with
  | none => none
  | some (none, rest) => some (none, rest)
  | some (some content, rest) => (read content).map fun x => (some x, rest)

/-- An optional part of a distribution point. One that cannot be read is as good as absent, and so
is what follows it. -/
def partOrNone {α : Type} (read : Bytes → Option α) (number : Nat) (b : Bytes) : Option α × Bytes :=
  (part? read number b).getD (none, b)

/-- Reads a distribution point of a certificate, and gives its names. -/
def distributionPoint? (b : Bytes) : Option (List GeneralName × Bytes) :=
  (Element.sequence? b).map fun (e, rest) =>
    (((partOrNone distributionPointNames? 0 e.content).1).getD [], rest)

/-- The names of all distribution points that an extension of a certificate lists. -/
def distributionPoints? (value : Bytes) : Option (List GeneralName) :=
  (Element.sequence? value).bind fun (e, _) =>
    (Element.all? distributionPoint? e.content).map List.flatten

/-- What an issuing distribution point says a CRL covers. -/
structure IssuingDistributionPoint where
  names : List GeneralName
  onlyUserCertificates : Bool
  onlyCaCertificates : Bool
  onlySomeReasons : Bool
  indirect : Bool
  onlyAttributeCertificates : Bool
deriving DecidableEq, Repr, Inhabited

/-- The value of a flag of one octet. -/
def truth? : Bytes → Option Bool
  | [x] => some (x != 0)
  | _ => none

/-- Reads an issuing distribution point. -/
def IssuingDistributionPoint.ofValue? (value : Bytes) : Option IssuingDistributionPoint :=
  (Element.sequence? value).map fun (e, _) =>
    let (names, r) := partOrNone distributionPointNames? 0 e.content
    let (users, r) := partOrNone truth? 1 r
    let (authorities, r) := partOrNone truth? 2 r
    let (reasons, r) := partOrNone reasons? 3 r
    let (indirect, r) := partOrNone truth? 4 r
    let (attributes, _) := partOrNone truth? 5 r
    { names := names.getD []
      onlyUserCertificates := users.getD false
      onlyCaCertificates := authorities.getD false
      onlySomeReasons := reasons.isSome
      indirect := indirect.getD false
      onlyAttributeCertificates := attributes.getD false }

/-! ## 3. Constraints and purposes -/

/-- Whether an element is a number that fits into 32 bits. -/
def isSmallNatural (e : Element) : Bool :=
  e.number = 2 && e.content.head?.any (· < 128) && Bytes.toNat e.content < 2 ^ 32

/-- Whether basic constraints speak of an issuer of certificates. -/
def issuesCertificates? (value : Bytes) : Option Bool := do
  let (e, _) ← Element.sequence? value
  match ← Element.all? Element.read? e.content with
  | [] => some false
  | [x] => if x.number = 1 then truth? x.content else if isSmallNatural x then some false else none
  | [x, y] => if x.number = 1 ∧ isSmallNatural y then truth? x.content else none
  | _ => none

/-- The purposes that an extension lists. -/
def purposes? (value : Bytes) : Option (List Oid) :=
  (Element.sequence? value).bind fun (e, _) => Element.all? Element.oid? e.content

end PeerTrust.X509
