import PeerTrust.Trust.Verifier

/-!
# Contexts of mutual authentication

* `TrustContext` holds the identities of this side and the verifier of its peers; `TrustContext.build`
  makes one of a configuration, or says what is wrong first;
* `TlsContext` is what a handshake is started from. Each one has its own settings, told apart by a
  number, and shares identities and caches with the others of its `TrustContext`.
-/

namespace PeerTrust

/-! ## 1. Building -/

/-- The identities of this side and the verifier of its peers, with the state of revocation
checks. -/
structure TrustContext where
  keys : KeyManagers
  verifier : PeerVerifier
  checker : RevocationChecker
  /-- How many contexts of handshakes were made. -/
  created : Nat
deriving Inhabited

namespace TrustContext

/-- The identities of the identity store. -/
def loadKeys (files : Files) (config : StoreConfig) : Except TrustError KeyManagers := do
  let store ← (CredentialStore.load .identity files config).mapError .store
  (KeyManagers.derive config.password store).mapError .keyRecovery

/-- The verifier and the revocation checks of the trust store. -/
def loadTrust (files : Files) (config : StoreConfig) (revocation : RevocationConfig) :
    Except TrustError (PeerVerifier × RevocationChecker) := do
  let store ← (CredentialStore.load .trust files config).mapError .store
  let checker ← (RevocationChecker.load revocation files store.crls).mapError .badCrls
  return (← PeerVerifier.derive .trust store, checker)

/-- The context of a configuration. Identities come first, so that nothing about trust can hide
what is wrong with them. -/
def load (files : Files) (config : TrustConfig) : Except TrustError TrustContext := do
  let keys ← loadKeys files config.identity
  let (verifier, checker) ← loadTrust files config.trust config.revocation
  return ⟨keys, verifier, checker, 0⟩

/-- Builds the context of a configuration, and switches revocation checking on in any case. -/
def build (files : Files) (config : TrustConfig) (p : SecurityPolicy) :
    Except TrustError TrustContext × SecurityPolicy :=
  (load files config, p.enableRevocationChecking)

/-- The configuration of properties. -/
def configOfProperties (properties : String → Option String) : Except TrustError TrustConfig :=
  (TrustConfig.ofProperties properties).mapError .missingProperty

/-- All verifiers of peers. -/
def verifiers (c : TrustContext) : List PeerVerifier := [c.verifier]

/-- Drops revocation data that has expired at a time. -/
def cleanup (now : Nat) (c : TrustContext) : TrustContext :=
  { c with checker := c.checker.cleanup now }

end TrustContext

/-! ## 2. Contexts of handshakes -/

/-- Settings of one side of a handshake, told apart by the number of the context that owns them. -/
structure TlsSettings where
  owner : Nat
deriving DecidableEq, Repr, Inhabited

/-- What a handshake is started from. -/
structure TlsContext where
  server : TlsSettings
  client : TlsSettings
  /-- Whether a client without a certificate is refused. -/
  needsClientAuth : Bool
deriving DecidableEq, Repr, Inhabited

/-- The protocols of all contexts. -/
def TlsContext.protocol : String := "TLS"

/-- Makes one more context of handshakes. -/
def TrustContext.create (c : TrustContext) : TlsContext × TrustContext :=
  (⟨⟨c.created⟩, ⟨c.created⟩, c.verifier.requiresClientAuth⟩, { c with created := c.created + 1 })

/-- Starts a handshake with a server of a name. -/
def TlsContext.connect (_ : TlsContext) (name : String) : Except TrustError Pkix.ServerName :=
  match Pkix.ServerName.parse? name with
  | some n => .ok n
  | none => .error (.badServerName name)

end PeerTrust
