import PeerTrust.Asn1.Time
import PeerTrust.X509.Algorithm
import PeerTrust.X509.Extension

/-!
# Certificates

* `X509.Certificate` is what is read of a certificate, `Certificate.read?` reads it;
* `Certificate.extension?` looks an extension up that must be the only one of its kind;
* `readTime?`, `readSerial?` and `readSignature?` are shared with CRLs.
-/

namespace PeerTrust.X509

open Asn1

/-- Reads a time in either of its written forms. -/
def readTime? (b : Bytes) : Option (Int × Bytes) :=
  match Element.read? b with
  | none => none
  | some (e, rest) =>
    if e.number = 23 then
      if e.content.all fun x => 0x20 ≤ x && x ≤ 0x7f then (Calendar.utcTime? e.content).map (·, rest)
      else none
    else if e.number = 24 then
      if e.content.all fun x => 0x20 ≤ x && x ≤ 0x7f then
        (Calendar.generalizedTime? e.content).map (·, rest)
      else none
    else none

/-- Reads the octets of a serial number, whatever they are. -/
def readSerial? (b : Bytes) : Option (Bytes × Bytes) :=
  match Element.read? b with
  | some (e, rest) => if e.number = 2 then some (e.content, rest) else none
  | none => none

/-- Reads the version, which says nothing here but must fit into 32 bits. -/
def readVersion? (b : Bytes) : Option Bytes :=
  match Element.tagged? 0 b with
  | none => none
  | some (none, rest) => some rest
  | some (some content, rest) =>
    match Element.read? content with
    | some (e, _) => if isSmallNatural e then some rest else none
    | none => none

/-- Passes over an optional string of bits under an implicit tag. -/
def skipUniqueId? (number : Nat) (b : Bytes) : Option Bytes :=
  (part? Element.bitsOfContent? number b).map (·.2)

/-- A certificate as it is read. -/
structure Certificate where
  /-- The octets that the signature is over. -/
  signed : Bytes
  serial : Bytes
  issuer : Name
  notBefore : Int
  notAfter : Int
  subject : Name
  publicKey : PublicKey
  extensions : List Extension
  signatureAlgorithm : AlgorithmIdentifier
  signature : Bytes
deriving DecidableEq, Repr, Inhabited

namespace Certificate

/-- Reads a period of validity. -/
def readValidity? (b : Bytes) : Option ((Int × Int) × Bytes) := do
  let (e, rest) ← Element.sequence? b
  let (notBefore, r) ← readTime? e.content
  let (notAfter, _) ← readTime? r
  return ((notBefore, notAfter), rest)

/-- Reads a certificate off the front of a string. -/
def read? (b : Bytes) : Option Certificate := do
  let (outer, _) ← Element.sequence? b
  let (inner, r) ← Element.sequence? outer.content
  let (signatureAlgorithm, r) ← AlgorithmIdentifier.read? r
  let (signature, _) ← Element.bits? r
  let r ← readVersion? inner.content
  let (serial, r) ← readSerial? r
  let (_, r) ← AlgorithmIdentifier.read? r
  let (issuer, r) ← Name.read? r
  let ((notBefore, notAfter), r) ← readValidity? r
  let (subject, r) ← Name.read? r
  let (publicKey, r) ← PublicKey.read? r
  let r ← skipUniqueId? 1 r
  let r ← skipUniqueId? 2 r
  let extensions ← Extension.list? 3 r
  return { signed := inner.raw, serial, issuer, notBefore, notAfter, subject, publicKey, extensions
           signatureAlgorithm, signature }

/-- The extension of one kind, if there is exactly one. -/
def extension? (c : Certificate) (oid : Oid) : Option Extension :=
  match c.extensions.filter (·.oid = oid) with
  | [x] => some x
  | _ => none

/-- Whether the certificate says that its subject issues certificates. -/
def isCa (c : Certificate) : Bool :=
  ((c.extension? Oid.basicConstraints).bind fun x => issuesCertificates? x.value).getD false

/-- Whether the key may be used for a purpose that must be named. -/
def hasPurpose (c : Certificate) (purpose : Oid) : Bool :=
  match (c.extension? Oid.extendedKeyUsage).bind fun x => purposes? x.value with
  | some purposes => purposes.contains purpose
  | none => false

/-- Where the OCSP responders of the issuer are found. -/
def responderUrls (c : Certificate) : List String :=
  c.extensions.flatMap fun x =>
    if x.oid = Oid.authorityInfoAccess then
      GeneralName.uris (((accessDescriptions? x.value).getD []).filterMap fun d =>
        if d.method = Oid.ocsp then some d.location else none)
    else []

/-- Where the CRLs that cover this certificate are found. -/
def crlUrls (c : Certificate) : List String :=
  c.extensions.flatMap fun x =>
    if x.oid = Oid.crlDistributionPoints then
      GeneralName.uris ((distributionPoints? x.value).getD [])
    else []

end Certificate

end PeerTrust.X509
