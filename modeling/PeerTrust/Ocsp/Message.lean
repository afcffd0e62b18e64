import PeerTrust.Certificate
import PeerTrust.Hash.Sha1
import PeerTrust.X509.Strict

/-!
# OCSP messages

A request asks for the status of one certificate; a response holds signed answers.

* `Ocsp.CertId` names a certificate by digests of its issuer and its serial number;
  `CertId.isOf` relates one to a certificate and its issuer;
* `Ocsp.Request.encode` writes a request, `Ocsp.request?` the one for a certificate;
* `Ocsp.Response.ofDer?` and `Ocsp.BasicResponse.ofDer?` read the two layers of a response;
* `Ocsp.ResponseData.encode` writes what its signature is over.
-/

namespace PeerTrust.Ocsp

open Der (Reader)
open Der.Reader
open X509.Strict (Algorithm Extension Moment)

/-! ## 1. Names of certificates -/

/-- A certificate, named by its issuer and its serial number. -/
structure CertId where
  digest : Algorithm
  issuerNameHash : Bytes
  issuerKeyHash : Bytes
  /-- The octets of the serial number. -/
  serial : Bytes
deriving DecidableEq, Repr, Inhabited

namespace CertId

/-- Reads a name of a certificate. -/
def reader : Reader CertId :=
  within Der.tagSequence do
    let digest ← X509.Strict.algorithm
    let issuerNameHash ← field Der.tagOctets
    let issuerKeyHash ← field Der.tagOctets
    return ⟨digest, issuerNameHash, issuerKeyHash, ← X509.Strict.serial⟩

/-- The written form. -/
def encode (id : CertId) : Bytes :=
  X509.Strict.encodeSequence [id.digest.encode, Der.encode Der.tagOctets id.issuerNameHash,
    Der.encode Der.tagOctets id.issuerKeyHash, Der.encode Der.tagInteger id.serial]

/-- The digest that an identifier names, of those used for certificates. -/
def hash? (oid : Oid) : Option (Bytes → Bytes) :=
  if oid = Oid.sha1 then some Sha1.digest
  else if oid = Oid.sha256 then some Sha256.digest
  else none

/-- Whether a certificate of an issuer is the one that is named. -/
def isOf (id : CertId) (c issuer : Certificate) : Bool :=
  match hash? id.digest.oid with
  | none => false
  | some hash =>
    id.serial = c.serial && id.issuerNameHash = hash issuer.subject &&
    id.issuerKeyHash = hash issuer.publicKey.key

end CertId

/-! ## 2. Requests -/

/-- A request for the status of one certificate. -/
structure Request where
  id : CertId
  nonce : Bytes
deriving DecidableEq, Repr, Inhabited

/-- The extension that carries a nonce: its value is again a string of octets. -/
def nonceExtension (nonce : Bytes) : Extension :=
  ⟨Oid.ocspNonce, false, Der.encode Der.tagOctets nonce⟩

/-- The written form. -/
def Request.encode (r : Request) : Bytes :=
  let list := X509.Strict.encodeSequence [X509.Strict.encodeSequence [r.id.encode]]
  let extensions := X509.Strict.encodeSequence [(nonceExtension r.nonce).encode]
  X509.Strict.encodeSequence [X509.Strict.encodeSequence [list,
    Der.encode (Der.tagExplicit 2) extensions]]

/-- The octets of a serial number as an unsigned integer, at most twenty of them. -/
def serialOctets? (serial : Bytes) : Option Bytes :=
  let digits := Serial.normalize serial
  let octets := if digits.head?.any (128 ≤ ·) then 0 :: digits else digits
  if 20 < octets.length then none else some octets

/-- The name under which the status of a certificate is asked for. -/
def certId? (c issuer : Certificate) : Option CertId :=
  (serialOctets? c.serial).map fun serial =>
    ⟨⟨Oid.sha1, none⟩, Sha1.digest issuer.subject, Sha1.digest issuer.publicKey.key, serial⟩

/-- The request for the status of a certificate, unless its serial number is too long. -/
def request? (c issuer : Certificate) (nonce : Bytes) : Option Request :=
  (certId? c issuer).map (⟨·, nonce⟩)

/-! ## 3. Answers -/

/-- The status of a certificate, as an answer states it. -/
inductive CertStatus where
  | good
  | revoked (since : Moment) (reason : Option Nat)
  | unknown
deriving DecidableEq, Repr, Inhabited

namespace CertStatus

/-- A reason for a revocation, of which 7 has no meaning. -/
def reason : Reader Nat := do
  let n ← expect (Der.natural? (← field Der.tagEnumerated))
  check (n ≤ 10 && n ≠ 7)
  return n

/-- Reads a status. -/
def reader : Reader CertStatus := do
  let (tag, content) ← element
  if tag = Der.tagImplicit 0 then
    check (content = [])
    return good
  else if tag = Der.tagImplicit 2 then
    check (content = [])
    return unknown
  else
    check (tag = Der.tagExplicit 1)
    expect (complete (do return revoked (← X509.Strict.moment) (← explicit 0 reason)) content)

/-- The written form. -/
def encode : CertStatus → Bytes
  | good => Der.encode (Der.tagImplicit 0) []
  | unknown => Der.encode (Der.tagImplicit 2) []
  | revoked since reason => Der.encode (Der.tagExplicit 1) (since.encode ++
      match reason with
      | none => []
      | some n => Der.encode (Der.tagExplicit 0) (Der.encode Der.tagEnumerated (Der.naturalOctets n)))

end CertStatus

/-- What a responder states about one certificate. -/
structure SingleResponse where
  id : CertId
  status : CertStatus
  thisUpdate : Moment
  nextUpdate : Option Moment
  extensions : Option (List Extension)
deriving DecidableEq, Repr, Inhabited

/-- The written form of extensions under an explicit tag. -/
def encodeExtensions (n : UInt8) : Option (List Extension) → Bytes
  | none => []
  | some xs => Der.encode (Der.tagExplicit n) (X509.Strict.encodeSequence (xs.map (·.encode)))

/-- Extensions under an explicit tag. -/
def extensions (n : UInt8) : Reader (Option (List Extension)) :=
  explicit n (X509.Strict.sequenceOf X509.Strict.extension)

namespace SingleResponse

/-- Reads one statement. -/
def reader : Reader SingleResponse :=
  within Der.tagSequence do
    let id ← CertId.reader
    let status ← CertStatus.reader
    let thisUpdate ← X509.Strict.moment
    let nextUpdate ← explicit 0 X509.Strict.moment
    return ⟨id, status, thisUpdate, nextUpdate, ← Ocsp.extensions 1⟩

/-- The written form. -/
def encode (s : SingleResponse) : Bytes :=
  X509.Strict.encodeSequence [s.id.encode, s.status.encode, s.thisUpdate.encode,
    (match s.nextUpdate with
      | none => []
      | some m => Der.encode (Der.tagExplicit 0) m.encode),
    encodeExtensions 1 s.extensions]

end SingleResponse

/-- Who signed a response: a name, or a digest of a key. -/
inductive ResponderId where
  | byName (der : Bytes)
  | byKey (hash : Bytes)
deriving DecidableEq, Repr, Inhabited

namespace ResponderId

/-- Reads who signed. -/
def reader : Reader ResponderId := do
  let (tag, content) ← element
  if tag = Der.tagExplicit 1 then expect (complete (byName <$> X509.Strict.name) content)
  else
    check (tag = Der.tagExplicit 2)
    expect (complete (byKey <$> field Der.tagOctets) content)

/-- The written form. -/
def encode : ResponderId → Bytes
  | byName der => Der.encode (Der.tagExplicit 1) der
  | byKey hash => Der.encode (Der.tagExplicit 2) (Der.encode Der.tagOctets hash)

/-- Whether a certificate is of who signed. -/
def isOf (id : ResponderId) (c : Certificate) : Bool :=
  match id with
  | byName der => der = c.subject
  | byKey hash => hash = Sha1.digest c.publicKey.key

end ResponderId

/-- What a response states, and its signature is over. -/
structure ResponseData where
  responder : ResponderId
  producedAt : Moment
  responses : List SingleResponse
  extensions : Option (List Extension)
deriving DecidableEq, Repr, Inhabited

namespace ResponseData

/-- Reads what a response states. -/
def reader : Reader ResponseData :=
  within Der.tagSequence do
    let _ ← explicit 0 (X509.Strict.version 0)
    let responder ← ResponderId.reader
    let producedAt ← X509.Strict.moment
    let responses ← X509.Strict.sequenceOf SingleResponse.reader
    return ⟨responder, producedAt, responses, ← Ocsp.extensions 1⟩

/-- The written form, in which the version goes without saying. -/
def encode (d : ResponseData) : Bytes :=
  X509.Strict.encodeSequence [d.responder.encode, d.producedAt.encode,
    X509.Strict.encodeSequence (d.responses.map (·.encode)), encodeExtensions 1 d.extensions]

end ResponseData

/-- Signed statements, with certificates that may help to check the signature. -/
structure BasicResponse where
  data : ResponseData
  signatureAlgorithm : Algorithm
  signature : Bytes
  certificates : List Bytes
deriving DecidableEq, Repr, Inhabited

namespace BasicResponse

/-- Reads signed statements. -/
def reader : Reader BasicResponse :=
  within Der.tagSequence do
    let data ← ResponseData.reader
    let algorithm ← X509.Strict.algorithm
    let (_, signature) ← X509.Strict.bits
    let certificates ← explicit 0 (X509.Strict.sequenceOf X509.Strict.certificate)
    return ⟨data, algorithm, signature, certificates.getD []⟩

/-- The signed statements that octets are. -/
def ofDer? (b : Bytes) : Option BasicResponse := complete reader b

end BasicResponse

/-! ## 4. The outer layer -/

/-- How a responder took the request. -/
inductive ResponseStatus where
  | successful
  | malformedRequest
  | internalError
  | tryLater
  | sigRequired
  | unauthorized
deriving DecidableEq, Repr, Inhabited

namespace ResponseStatus

/-- The status of a number. -/
def ofNat? : Nat → Option ResponseStatus
  | 0 => some successful
  | 1 => some malformedRequest
  | 2 => some internalError
  | 3 => some tryLater
  | 5 => some sigRequired
  | 6 => some unauthorized
  | _ => none

/-- The name of a status. -/
def name : ResponseStatus → String
  | successful => "Successful"
  | malformedRequest => "MalformedRequest"
  | internalError => "InternalError"
  | tryLater => "TryLater"
  | sigRequired => "SigRequired"
  | unauthorized => "Unauthorized"

end ResponseStatus

/-- A response: how the request was taken, and the octets of an answer of some type. -/
structure Response where
  status : ResponseStatus
  body : Option (Oid × Bytes)
deriving DecidableEq, Repr, Inhabited

namespace Response

/-- Reads a response. -/
def reader : Reader Response :=
  within Der.tagSequence do
    let number ← expect (Der.natural? (← field Der.tagEnumerated))
    let status ← expect (ResponseStatus.ofNat? number)
    let body ← explicit 0 (within Der.tagSequence do
      return (← X509.Strict.oid, ← field Der.tagOctets))
    return ⟨status, body⟩

/-- The response that octets are. -/
def ofDer? (b : Bytes) : Option Response := complete reader b

end Response

end PeerTrust.Ocsp
