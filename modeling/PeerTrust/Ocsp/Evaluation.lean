import PeerTrust.Ocsp.Message
import PeerTrust.Url

/-!
# What an OCSP response proves

* `Ocsp.verifyData` checks a signature of a responder, by the kinds of keys and signatures that
  responders use;
* `Ocsp.signer` is whose signature a response needs: the issuer of the certificate, or one to whom
  the issuer delegated, whose certificate is among those of the response;
* `Ocsp.authenticate` gives what a response states once its signature holds;
* `Ocsp.evaluate` goes through all that makes a response good evidence about a certificate and
  gives the status it states.
-/

namespace PeerTrust.Ocsp

/-- The status of a certificate. -/
inductive Status where
  | good
  | revoked
  | unknown
deriving DecidableEq, Repr, Inhabited

/-- Why the signature of a response does not hold. -/
inductive SignatureError where
  | unsupported (algorithm key : Oid)
  | mismatch (name : String)
deriving DecidableEq, Repr, Inhabited

/-- The wording of an error. -/
def SignatureError.message : SignatureError → String
  | unsupported algorithm key =>
    s!"unsupported signature algorithm {algorithm.toText} for {key.toText} key"
  | mismatch name => s!"signature does not verify under the key of '{name}'"

/-- Why a response, or a question for one, proves nothing. -/
inductive Error where
  | serialTooLong
  | undecodable
  | responderStatus (status : ResponseStatus)
  | noBody
  | unsupportedType (oid : Oid)
  | undecodableBody
  | certificate (cause : CertificateError)
  | lacksUsage (responder : String)
  | foreignResponder (responder issuer : String)
  | expiredResponder (responder : String)
  | unknownSigner
  | badSignature (cause : SignatureError)
  | nonceMismatch
  | notFound
  | future
  | stale
  | noResponder (name : String)
  | invalidUrl (text : String) (cause : UrlError)
deriving DecidableEq, Repr, Inhabited

/-- The wording of an error, after what kind of check failed. -/
def Error.message : Error → String
  | certificate cause => s!"Certificate parsing failed: {cause.message}"
  | e => "OCSP validation failed: " ++
    match e with
    | certificate _ => ""
    | serialTooLong => "serial number: too long"
    | undecodable => "Failed to decode OCSP response: not a response"
    | responderStatus status => s!"responder returned status {status.name}"
    | noBody => "No response bytes in OCSP response"
    | unsupportedType oid => s!"unsupported response type {oid.toText}"
    | undecodableBody => "Failed to parse basic OCSP response: not a basic response"
    | lacksUsage responder =>
      s!"responder certificate '{responder}' lacks the OCSPSigning extended key usage"
    | foreignResponder responder issuer =>
      s!"responder certificate '{responder}' is not issued by '{issuer}'"
    | expiredResponder responder => s!"responder certificate '{responder}' has expired"
    | unknownSigner => "response is signed neither by the issuer nor by a delegated responder"
    | badSignature cause => s!"OCSP response signature invalid: {cause.message}"
    | nonceMismatch => "OCSP nonce mismatch - possible replay attack"
    | notFound => "Certificate not found in OCSP response"
    | future => "response thisUpdate lies in the future"
    | stale => "response is stale (nextUpdate has passed)"
    | noResponder name => s!"'{name}' names no OCSP responder"
    | invalidUrl text cause => s!"Invalid OCSP URL '{text}': {cause.message}"

/-! ## 1. Signatures -/

/-- The scheme of a signature by an elliptic curve, which the length of the key tells. -/
def curveScheme? (d : Digest) (key : Bytes) : Option X509.SignatureScheme :=
  if key.length = 65 then some (.ecdsaP256 d)
  else if key.length = 97 then some (.ecdsaP384 d)
  else none

/-- The scheme by which a key signs with an algorithm. -/
def scheme? (key : X509.PublicKey) (algorithm : Oid) : Option X509.SignatureScheme :=
  if key.algorithm.oid = Oid.rsaEncryption then
    if algorithm = Oid.sha256WithRsa then some (.rsaPkcs1 .sha256 2048)
    else if algorithm = Oid.sha384WithRsa then some (.rsaPkcs1 .sha384 2048)
    else if algorithm = Oid.sha512WithRsa then some (.rsaPkcs1 .sha512 2048)
    else none
  else if key.algorithm.oid = Oid.ecPublicKey then
    if algorithm = Oid.ecdsaWithSha256 then curveScheme? .sha256 key.key
    else if algorithm = Oid.ecdsaWithSha384 then curveScheme? .sha384 key.key
    else none
  else if key.algorithm.oid = Oid.ed25519 ∧ algorithm = Oid.ed25519 then some .ed25519
  else none

/-- Checks a signature under the key of a certificate. -/
def verifyData (signer : Certificate) (algorithm : Oid) (message signature : Bytes) :
    Except SignatureError Unit :=
  match scheme? signer.publicKey algorithm with
  | none => .error (.unsupported algorithm signer.publicKey.algorithm.oid)
  | some scheme =>
    if scheme.verify signer.publicKey.key message signature then .ok ()
    else .error (.mismatch signer.displayName)

/-- The certificate of the responder among those of a response: the first that is the one named. It
has to be meant for this use, of the issuer and not expired. -/
def delegate (id : ResponderId) (issuer : Certificate) (now : Nat) :
    List Bytes → Except Error Certificate
  | [] => .error .unknownSigner
  | der :: rest =>
    match Certificate.ofDer der with
    | .error e => .error (.certificate e)
    | .ok c =>
      if !id.isOf c then delegate id issuer now rest
      else if !c.signsOcsp then .error (.lacksUsage c.displayName)
      else if !c.isIssuedBy issuer then .error (.foreignResponder c.displayName issuer.displayName)
      else if c.notAfter < now then .error (.expiredResponder c.displayName)
      else .ok c

/-- Whose signature a response needs. -/
def signer (r : BasicResponse) (issuer : Certificate) (now : Nat) : Except Error Certificate :=
  if r.data.responder.isOf issuer then .ok issuer
  else delegate r.data.responder issuer now r.certificates

/-- Checks the signature of a response. -/
def verifySignature (r : BasicResponse) (issuer : Certificate) (now : Nat) : Except Error Unit :=
  match signer r issuer now with
  | .error e => .error e
  | .ok c =>
    (verifyData c r.signatureAlgorithm.oid r.data.encode r.signature).mapError .badSignature

/-! ## 2. Statements -/

/-- The clock difference to a responder that is let pass, in seconds. -/
def clockSkew : Nat := 300

/-- Whether the value of a nonce extension is a nonce, bare or as a string of octets. -/
def isNonce (value nonce : Bytes) : Bool :=
  value = nonce || Der.Reader.complete (Der.Reader.field Der.tagOctets) value = some nonce

/-- Checks the nonce of a response against the one asked with; a response need not have one. -/
def checkNonce (d : ResponseData) (nonce : Option Bytes) : Except Error Unit :=
  match nonce, (d.extensions.getD []).find? (·.oid = Oid.ocspNonce) with
  | some nonce, some x => if isNonce x.value nonce then .ok () else .error .nonceMismatch
  | _, _ => .ok ()

/-- Checks that a statement is neither of a time to come nor outdated. -/
def checkTimes (s : SingleResponse) (now : Nat) : Except Error Unit :=
  if now + clockSkew < s.thisUpdate.seconds then .error .future
  else if s.nextUpdate.any fun next => next.seconds + clockSkew < now then .error .stale
  else .ok ()

/-- The status that a statement gives. -/
def CertStatus.toStatus : CertStatus → Status
  | good => .good
  | revoked _ _ => .revoked
  | unknown => .unknown

/-- What a response states of a certificate, and when a newer statement is due. -/
structure Answer where
  status : Status
  nextUpdate : Option Nat
deriving DecidableEq, Repr, Inhabited

/-- The basic response inside octets. -/
def decode (response : Bytes) : Except Error BasicResponse :=
  match Response.ofDer? response with
  | none => .error .undecodable
  | some r =>
    if r.status ≠ .successful then .error (.responderStatus r.status)
    else
      match r.body with
      | none => .error .noBody
      | some (type, body) =>
        if type ≠ Oid.ocspBasic then .error (.unsupportedType type)
        else
          match BasicResponse.ofDer? body with
          | none => .error .undecodableBody
          | some basic => .ok basic

/-- What a response states that an issuer, or one it delegated to, has signed. -/
def authenticate (response : Bytes) (issuer : Certificate) (now : Nat) : Except Error ResponseData := do
  let r ← decode response
  verifySignature r issuer now
  return r.data

/-- What signed data state of a certificate. -/
def ResponseData.answer (d : ResponseData) (c issuer : Certificate) (nonce : Option Bytes)
    (now : Nat) : Except Error Answer := do
  checkNonce d nonce
  match d.responses.find? (·.id.isOf c issuer) with
  | none => throw .notFound
  | some s =>
    checkTimes s now
    return ⟨s.status.toStatus, s.nextUpdate.map (·.seconds)⟩

/-- What a response proves of a certificate of an issuer. -/
def evaluate (response : Bytes) (c issuer : Certificate) (nonce : Option Bytes) (now : Nat) :
    Except Error Answer := do
  (← authenticate response issuer now).answer c issuer nonce now

end PeerTrust.Ocsp
