import PeerTrust.Certificate
import PeerTrust.X509.RevocationList

/-!
# Certificate revocation lists as evidence

* `Crl` is a CRL with what trust decisions use of it; `Crl.parse` reads one from a file;
* `Crl.Scope` says which certificates it speaks of, `Crl.Coverage` also that nobody can tell;
* `Crl.covers` relates it to a certificate of its issuer;
* `Crl.statusOf` checks its signature, its age and its scope, and looks a certificate up.
-/

namespace PeerTrust

/-- What a CRL says of a certificate. -/
inductive CrlStatus where
  | valid
  | revoked
deriving DecidableEq, Repr, Inhabited

/-- Why a CRL tells nothing. -/
inductive CrlError where
  | invalidPem (cause : Pem.Error)
  | noneInFile
  | notDer
  | unreadable (path : String) (cause : FileError)
  | inFile (path : String) (cause : CrlError)
  | unusable (issuer : String) (extension : Oid)
  | badSignature (issuer : String) (cause : X509.SignatureError)
  | stale (issuer : String)
  | indirect (issuer : String)
  | someReasons (issuer : String)
  | noDistributionPoint (name : String)
  | foreignIssuer (url : String)
  | notCovering (url name : String)
deriving DecidableEq, Repr, Inhabited

/-- The wording of an error. -/
def CrlError.message : CrlError → String
  | invalidPem cause => s!"Invalid PEM: {cause.message}"
  | noneInFile => "No CRL data found in PEM"
  | notDer => "CRL parsing failed: not a CRL"
  | unreadable path cause => s!"Failed to read CRL {path}: {cause.message}"
  | inFile path cause => s!"{path}: CRL validation failed: {cause.message}"
  | unusable issuer extension =>
    s!"CRL from '{issuer}' is unusable: unsupported critical CRL extension {extension.toText}"
  | badSignature issuer cause =>
    s!"CRL signature does not verify under '{issuer}': {cause.message}"
  | stale issuer => s!"CRL from '{issuer}' is past its nextUpdate"
  | indirect issuer => s!"indirect CRL from '{issuer}' is not supported"
  | someReasons issuer => s!"CRL from '{issuer}' covers only some revocation reasons"
  | noDistributionPoint name => s!"'{name}' names no CRL distribution point"
  | foreignIssuer url => s!"CRL at {url} is not issued by the certificate's issuer"
  | notCovering url name => s!"CRL at {url} does not cover '{name}'"

namespace Crl

/-! ## 1. Scope -/

/-- Which certificates a CRL speaks of; without limits, all of its issuer. -/
structure Scope where
  distributionPoints : List String
  onlyUserCertificates : Bool
  onlyCaCertificates : Bool
  onlyAttributeCertificates : Bool
  onlySomeReasons : Bool
  indirect : Bool
deriving DecidableEq, Repr, Inhabited

namespace Scope

/-- The scope of a CRL that names no limits. -/
def complete : Scope := ⟨[], false, false, false, false, false⟩

/-- The scope after one more issuing distribution point. -/
def restrict (s : Scope) (p : X509.IssuingDistributionPoint) : Scope :=
  { distributionPoints := s.distributionPoints ++ X509.GeneralName.uris p.names
    onlyUserCertificates := p.onlyUserCertificates
    onlyCaCertificates := p.onlyCaCertificates
    onlyAttributeCertificates := p.onlyAttributeCertificates
    onlySomeReasons := p.onlySomeReasons
    indirect := p.indirect }

/-- Whether a certificate is within the scope. -/
def includes (s : Scope) (c : Certificate) : Bool :=
  !s.onlyAttributeCertificates && !(s.onlyUserCertificates && c.isCa) &&
  !(s.onlyCaCertificates && !c.isCa) &&
  (s.distributionPoints.isEmpty || c.crlUrls.any s.distributionPoints.contains)

/-- Whether the CRL may be found at a location: it names it, or names none. -/
def isServedFrom (s : Scope) (url : String) : Bool :=
  s.distributionPoints.isEmpty || s.distributionPoints.contains url

end Scope

/-- The scope of a CRL, or an extension that must be understood and is not. -/
inductive Coverage where
  | within (scope : Scope)
  | unusable (extension : Oid)
deriving DecidableEq, Repr, Inhabited

/-- The coverage that extensions describe, after those passed already gave a scope. -/
def coverageFrom : Scope → List X509.Extension → Coverage
  | s, [] => .within s
  | s, x :: rest =>
    match if x.oid = Oid.issuingDistributionPoint then
        X509.IssuingDistributionPoint.ofValue? x.value else none with
    | some p => coverageFrom (s.restrict p) rest
    | none => if x.critical then .unusable x.oid else coverageFrom s rest

end Crl

/-! ## 2. Records -/

/-- A CRL with what trust decisions use of it. -/
structure Crl where
  /-- The octets of the name of its issuer. -/
  issuer : Bytes
  /-- When a newer one is due, in seconds since 1970. -/
  nextUpdate : Option Nat
  /-- The serial numbers it lists, without leading zeros. -/
  revoked : List Bytes
  coverage : Crl.Coverage
  /-- The octets that the signature is over. -/
  signed : Bytes
  signatureAlgorithm : X509.AlgorithmIdentifier
  signature : Bytes
deriving DecidableEq, Repr, Inhabited

namespace Crl

/-- The octets of a CRL in a file: the first block of the right kind where the file is PEM, else the
whole file. -/
def inFile (content : Bytes) : Except CrlError Bytes :=
  if Pem.looksLikePem content then
    match Pem.read content with
    | .error e => .error (.invalidPem e)
    | .ok blocks =>
      match blocks.find? (·.tag = "X509 CRL") with
      | some block => .ok block.contents
      | none => .error .noneInFile
  else .ok content

/-- The CRL that begins a string of octets. -/
def ofDer (der : Bytes) : Except CrlError Crl :=
  match X509.RevocationList.read? der with
  | none => .error .notDer
  | some c => .ok {
      issuer := c.issuer.raw
      nextUpdate := c.nextUpdate.map Int.toNat
      revoked := c.serials.map Serial.normalize
      coverage := coverageFrom .complete c.extensions
      signed := c.signed
      signatureAlgorithm := c.signatureAlgorithm
      signature := c.signature }

/-- Reads a CRL, PEM or not. -/
def parse (content : Bytes) : Except CrlError Crl := inFile content >>= ofDer

/-- Whether a CRL of the issuer of a certificate speaks of it. Where nobody can tell, it does. -/
def covers (crl : Crl) (c : Certificate) : Bool :=
  crl.issuer = c.issuer &&
  match crl.coverage with
  | .within scope => scope.includes c
  | .unusable _ => true

/-- Whether a newer CRL was due before a time. -/
def isStale (crl : Crl) (now : Nat) : Bool := crl.nextUpdate.any (· < now)

/-- Whether a CRL lists a certificate. -/
def lists (crl : Crl) (c : Certificate) : Bool := crl.revoked.contains (Serial.normalize c.serial)

/-- What a CRL says of a certificate, once it is found to be the word of the issuer. -/
def statusOf (crl : Crl) (c issuer : Certificate) (now : Nat) : Except CrlError CrlStatus :=
  match crl.coverage with
  | .unusable extension => .error (.unusable issuer.displayName extension)
  | .within scope =>
    match issuer.publicKey.verify crl.signatureAlgorithm crl.signed crl.signature with
    | .error e => .error (.badSignature issuer.displayName e)
    | .ok () =>
      if crl.isStale now then .error (.stale issuer.displayName)
      else if scope.indirect then .error (.indirect issuer.displayName)
      else if crl.lists c then .ok .revoked
      else if scope.onlySomeReasons then .error (.someReasons issuer.displayName)
      else .ok .valid

end Crl

end PeerTrust
