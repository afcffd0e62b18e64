import PeerTrust.X509.Certificate

/-!
# Certificate revocation lists

`RevocationList` is what is read of a CRL, `RevocationList.read?` reads it.
-/

namespace PeerTrust.X509

open Asn1

/-- A CRL as it is read. -/
structure RevocationList where
  /-- The octets that the signature is over. -/
  signed : Bytes
  issuer : Name
  thisUpdate : Int
  nextUpdate : Option Int
  /-- The serial numbers it lists, as written. -/
  serials : List Bytes
  extensions : List Extension
  signatureAlgorithm : AlgorithmIdentifier
  signature : Bytes
deriving DecidableEq, Repr, Inhabited

namespace RevocationList

/-- Reads an entry, and gives its serial number. -/
def readEntry? (b : Bytes) : Option (Bytes × Bytes) :=
  match Element.sequence? b with
  | none => none
  | some (e, rest) => do
    let (serial, r) ← readSerial? e.content
    let _ ← readTime? r
    return (serial, rest)

/-- Reads the list of entries; it is absent where it cannot be read. -/
def readEntries (b : Bytes) : List Bytes × Bytes :=
  match Element.sequence? b with
  | none => ([], b)
  | some (e, rest) =>
    match Element.all? readEntry? e.content with
    | none => ([], b)
    | some entries => (entries, rest)

/-- Passes over a version number, which may be absent. -/
def skipVersion (b : Bytes) : Bytes :=
  match Element.read? b with
  | some (e, rest) => if isSmallNatural e then rest else b
  | none => b

/-- Reads a CRL off the front of a string. -/
def read? (b : Bytes) : Option RevocationList := do
  let (outer, _) ← Element.sequence? b
  let (inner, r) ← Element.sequence? outer.content
  let (signatureAlgorithm, r) ← AlgorithmIdentifier.read? r
  let (signature, _) ← Element.bits? r
  let (_, r) ← AlgorithmIdentifier.read? (skipVersion inner.content)
  let (issuer, r) ← Name.read? r
  let (thisUpdate, r) ← readTime? r
  let (nextUpdate, r) :=
    match readTime? r with
    | some (t, r) => (some t, r)
    | none => (none, r)
  let (serials, r) := readEntries r
  let extensions ← Extension.list? 0 r
  return { signed := inner.raw, issuer, thisUpdate, nextUpdate, serials, extensions
           signatureAlgorithm, signature }

end RevocationList

end PeerTrust.X509
