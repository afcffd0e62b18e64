import PeerTrust.Key.Manager
import PeerTrust.Pkix.ServerName
import PeerTrust.Revocation.Checker

/-!
# Errors of trust

* `TrustError` is why there is no context, or why a peer is not trusted; `TrustError.message` words
  it;
* `HandshakeError` is why a handshake fails. A refusal of a peer travels inside it, and
  `HandshakeError.failure?` takes it out again: `failure?_ofFailure`.
-/

namespace PeerTrust

/-- Why there is no context, or why a peer is not trusted. -/
inductive TrustError where
  | store (cause : StoreError)
  | keyRecovery (cause : KeyRecoveryError)
  /-- None of so many entries of a store is an anchor. -/
  | noAnchor (entries : Nat) (role : StoreRole)
  | badCrls (cause : CrlError)
  | badRoleName
  | badServerName (name : String)
  | refused (cause : ValidationFailure)
  | missingProperty (property : TrustConfig.Property)
  | certificate (cause : CertificateError)
  | network (cause : NetworkError)
deriving DecidableEq, Repr, Inhabited

/-- The wording of an error. -/
def TrustError.message : TrustError → String
  | store cause => cause.message
  | keyRecovery cause => cause.message
  | noAnchor entries role =>
    s!"trust store holds no usable trust anchors: none of the {entries} entries of the " ++
      s!"{role.name} store is a usable trust anchor"
  | badCrls cause =>
    s!"certificate path validation could not be configured: CRL validation failed: {cause.message}"
  | badRoleName =>
    "certificate path validation could not be configured: invalid server name: " ++
      Pkix.ServerName.invalid
  | badServerName name =>
    s!"TLS context initialization failed: invalid server name '{name}': " ++ Pkix.ServerName.invalid
  | refused cause => s!"certificate validation failed: {cause.message}"
  | missingProperty property => s!"required property '{property.key}' is missing"
  | certificate cause => s!"Certificate parsing failed: {cause.message}"
  | network cause => s!"Network error during validation: {cause.message}"

/-- Why a handshake fails. -/
inductive HandshakeError where
  /-- A peer is not trusted, for a reason of this library. -/
  | untrusted (cause : TrustError)
  /-- A chain is not accepted, for a reason of chain validation alone. -/
  | chain (cause : Pkix.Error)
  /-- A certificate is not accepted, for a reason from elsewhere. -/
  | foreign (detail : String)
  | noCertificate
  | general (detail : String)
deriving DecidableEq, Repr, Inhabited

namespace HandshakeError

/-- The error by which a refusal travels. -/
def ofFailure (f : ValidationFailure) : HandshakeError := untrusted (.refused f)

/-- The refusal inside an error, if there is one. -/
def failure? : HandshakeError → Option ValidationFailure
  | untrusted (.refused f) => some f
  | _ => none

theorem failure?_ofFailure (f : ValidationFailure) : (ofFailure f).failure? = some f := rfl

/-- The name of a failure that is no refusal. -/
def name : HandshakeError → String
  | untrusted _ | chain _ | foreign _ => "InvalidCertificate"
  | noCertificate => "NoCertificatesPresented"
  | general _ => "General"

end HandshakeError

end PeerTrust
