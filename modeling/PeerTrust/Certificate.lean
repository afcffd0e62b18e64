import PeerTrust.Files
import PeerTrust.Text.Pem
import PeerTrust.X509.Certificate

/-!
# Certificates of peers and issuers

* `Certificate` holds the parts of a certificate that trust decisions use, `Certificate.ofDer`
  takes them from its octets;
* `Certificate.displayName` names a certificate in messages;
* `Certificate.IssuedBy` relates a certificate to its issuer: the names agree and the signature
  verifies. `Certificate.isIssuedBy` checks that: `Certificate.isIssuedBy_iff`;
* `Certificate.load` reads the octets of a certificate from a file, PEM or not;
* `Serial.normalize` makes serial numbers comparable.
-/

namespace PeerTrust

/-- A serial number without leading zeros, of which the last octet stays. -/
def Serial.normalize : Bytes → Bytes
  | [] => []
  | [x] => [x]
  | x :: y :: rest => if x = 0 then normalize (y :: rest) else x :: y :: rest

/-- Why a certificate could not be had. -/
inductive CertificateError where
  | notDer
  | unreadable (path : String) (cause : FileError)
  | invalidPem (cause : Pem.Error)
  | noneInFile (path : String)
deriving DecidableEq, Repr, Inhabited

/-- The wording of an error. -/
def CertificateError.message : CertificateError → String
  | notDer => "Failed to parse DER certificate: not a certificate"
  | unreadable path cause => s!"Failed to read {path}: {cause.message}"
  | invalidPem cause => s!"Invalid PEM: {cause.message}"
  | noneInFile path => s!"No certificate found in {path}"

/-- The parts of a certificate that trust decisions use. -/
structure Certificate where
  /-- All its octets, as given. -/
  der : Bytes
  /-- The octets of the subject's name. -/
  subject : Bytes
  /-- The octets of the issuer's name. -/
  issuer : Bytes
  /-- The octets of the serial number. -/
  serial : Bytes
  commonName : Option String
  publicKey : X509.PublicKey
  /-- Where the issuer's OCSP responders are found. -/
  responderUrls : List String
  /-- Where the CRLs that cover the certificate are found. -/
  crlUrls : List String
  /-- Whether the subject issues certificates. -/
  isCa : Bool
  /-- Whether the key may sign OCSP responses for its issuer. -/
  signsOcsp : Bool
  /-- The end of validity in seconds since 1970, zero for times before. -/
  notAfter : Nat
  /-- The octets that the signature is over. -/
  signed : Bytes
  signatureAlgorithm : X509.AlgorithmIdentifier
  signature : Bytes
deriving DecidableEq, Repr, Inhabited

namespace Certificate

/-- The certificate that begins a string of octets. -/
def ofDer (der : Bytes) : Except CertificateError Certificate :=
  match X509.Certificate.read? der with
  | none => .error .notDer
  | some c => .ok {
      der
      subject := c.subject.raw
      issuer := c.issuer.raw
      serial := c.serial
      commonName := c.subject.commonName?
      publicKey := c.publicKey
      responderUrls := c.responderUrls
      crlUrls := c.crlUrls
      isCa := c.isCa
      signsOcsp := c.hasPurpose Oid.ocspSigning
      notAfter := c.notAfter.toNat
      signed := c.signed
      signatureAlgorithm := c.signatureAlgorithm
      signature := c.signature }

/-- The common name, or the serial number where there is none. -/
def displayName (c : Certificate) : String :=
  match c.commonName with
  | some name => name
  | none => "serial:" ++ c.serial.toHex

/-- Whether a certificate names another as its issuer and its signature verifies under the key of
that other. -/
def isIssuedBy (child issuer : Certificate) : Bool :=
  child.issuer = issuer.subject &&
  (issuer.publicKey.verify child.signatureAlgorithm child.signed child.signature).isOk

/-- A certificate names another as its issuer, and its signature verifies under the key of that
other. -/
structure IssuedBy (child issuer : Certificate) : Prop where
  name : child.issuer = issuer.subject
  signature : issuer.publicKey.verify child.signatureAlgorithm child.signed child.signature = .ok ()

theorem isIssuedBy_iff {child issuer : Certificate} :
    child.isIssuedBy issuer = true ↔ child.IssuedBy issuer := by
  have hverify : (issuer.publicKey.verify child.signatureAlgorithm child.signed
      child.signature).isOk = true ↔
      issuer.publicKey.verify child.signatureAlgorithm child.signed child.signature = .ok () := by
    cases issuer.publicKey.verify child.signatureAlgorithm child.signed child.signature <;>
      simp [Except.isOk, Except.toBool]
  rw [isIssuedBy, Bool.and_eq_true, decide_eq_true_iff, hverify]
  constructor
  · intro h
    exact ⟨h.1, h.2⟩
  · intro h
    exact ⟨h.name, h.signature⟩

theorem isIssuedBy_eq_false_iff {child issuer : Certificate} :
    child.isIssuedBy issuer = false ↔ ¬ child.IssuedBy issuer := by
  rw [← isIssuedBy_iff, Bool.not_eq_true]

/-- The octets of a certificate in a file: the first block of the right kind where the file is PEM,
else the whole file. -/
def inFile (path : String) (content : Bytes) : Except CertificateError Bytes :=
  if Pem.looksLikePem content then
    match Pem.read content with
    | .error e => .error (.invalidPem e)
    | .ok blocks =>
      match blocks.find? (·.tag = "CERTIFICATE") with
      | some block => .ok block.contents
      | none => .error (.noneInFile path)
  else .ok content

/-- Loads the octets of one certificate, which have to be those of a certificate. -/
def load (files : Files) (path : String) : Except CertificateError Bytes :=
  match files path with
  | .error e => .error (.unreadable path e)
  | .ok content => do
    let der ← inFile path content
    let _ ← ofDer der
    return der

end Certificate

end PeerTrust
