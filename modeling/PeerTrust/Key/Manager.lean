import PeerTrust.Key.Private
import PeerTrust.Pkix.Certificate
import PeerTrust.Store.Credential

/-!
# Key managers

Each private key of the identity store, with its chain, is an identity that this side may present.

* `StoredKey.recover` gives the octets of a stored key, `StoredKey.signingKey` the key that they
  are;
* `Identity.derive` pairs a key with its chain, whose leaf has to hold the public half;
* `KeyManager.choose` picks the identity to present: the first that can sign and whose chain the
  peer hints at, or else the first that can sign;
* `KeyManagers.derive` takes all identities of a store, or says which one fails first.
-/

namespace PeerTrust

/-! ## 1. Keys -/

/-- Why a stored key cannot be used. -/
inductive KeyError where
  | notOpened (cause : Sealed.Error)
  | encrypted
  | notAKey
  | unreadableLeaf (cause : Pkix.Error)
  | foreignLeaf
  /-- There is no key at all. -/
  | noKeys
deriving DecidableEq, Repr, Inhabited

/-- The wording of an error. -/
def KeyError.message : KeyError → String
  | notOpened cause => cause.message
  | encrypted => "PBES2-encrypted keys are not supported, store the key as SEALED PRIVATE KEY"
  | notAKey =>
    "key rejected by the crypto provider: failed to parse private key as RSA, ECDSA, or EdDSA"
  | unreadableLeaf cause =>
    s!"key does not match its certificate: invalid peer certificate: {cause.message}"
  | foreignLeaf => "key does not match its certificate: keys may not be consistent: KeyMismatch"
  | noKeys => "identity store holds no private key entries"

/-- Which identity of a store cannot be used, and why. -/
structure KeyRecoveryError where
  label : String
  reason : KeyError
deriving DecidableEq, Repr, Inhabited

/-- The wording of an error. -/
def KeyRecoveryError.message (e : KeyRecoveryError) : String :=
  s!"private key '{e.label}' in the identity store could not be recovered: {e.reason.message}"

namespace StoredKey

/-- The form and the octets of a stored key, taken out of its container if it is in one. -/
def recover (k : StoredKey) (password : Option Secret) : Except KeyError (KeyForm × Secret) :=
  match k.encoding with
  | .pkcs8 => .ok (.pkcs8, k.data)
  | .pkcs1 => .ok (.pkcs1, k.data)
  | .sec1 => .ok (.sec1, k.data)
  | .encryptedPkcs8 => .error .encrypted
  | .sealed =>
    match Sealed.unwrap k.data.octets password with
    | .ok key => .ok (.pkcs8, key)
    | .error e => .error (.notOpened e)

/-- The key that a stored key is. -/
def signingKey (k : StoredKey) (password : Option Secret) : Except KeyError SigningKey := do
  let (form, octets) ← k.recover password
  match SigningKey.read? form octets.octets with
  | some key => return key
  | none => throw .notAKey

end StoredKey

/-! ## 2. Identities -/

/-- A key with its chain, the leaf first. -/
structure Identity where
  label : String
  chain : List Certificate
  key : SigningKey
deriving DecidableEq, Repr, Inhabited

namespace Identity

/-- The leaf of the chain. -/
def leaf? (i : Identity) : Option Certificate := i.chain.head?

/-- The names of the issuers of the certificates of the chain. -/
def issuers (i : Identity) : List Bytes := i.chain.map (·.issuer)

/-- Checks that a leaf holds the public half of a key. -/
def checkLeaf (key : SigningKey) (leaf : Certificate) : Except KeyError Unit :=
  match Pkix.Certificate.ofDer leaf.der with
  | .error e => .error (.unreadableLeaf e)
  | .ok c => if c.writtenKey = key.publicKey then .ok () else .error .foreignLeaf

/-- The identity of a stored key with its chain. -/
def derive (password : Option Secret) (label : String) (chain : List Certificate) (k : StoredKey) :
    Except KeyError Identity := do
  let key ← k.signingKey password
  chain.head?.forM (checkLeaf key)
  return ⟨label, chain, key⟩

/-- Whether a certificate of the chain has one of some issuers. -/
def isHintedAt (i : Identity) (hints : List Bytes) : Bool := i.issuers.any hints.contains

end Identity

/-! ## 3. Managers -/

/-- The identities of which one is presented, in order. -/
structure KeyManager where
  identities : List Identity
deriving DecidableEq, Repr, Inhabited

namespace KeyManager

/-- The names of the identities. -/
def labels (m : KeyManager) : List String := m.identities.map (·.label)

/-- The identity to present to a peer that accepts some signature schemes and hints at issuers. -/
def choose (m : KeyManager) (offered : List SchemeCode) (hints : List Bytes) : Option Identity :=
  let able := m.identities.filter (·.key.signsWith offered)
  (able.find? (·.isHintedAt hints)).or able.head?

/-- Whether there is an identity at all. -/
def hasIdentities (m : KeyManager) : Bool := !m.identities.isEmpty

end KeyManager

/-- Managers in order; the first that has an identity to present does so. -/
abbrev KeyManagers := List KeyManager

namespace KeyManagers

/-- The identity that a server presents. -/
def forServer (ms : KeyManagers) (offered : List SchemeCode) : Option Identity :=
  ms.findSome? fun m => m.choose offered []

/-- The identity that a client presents to a server that hints at issuers. -/
def forClient (ms : KeyManagers) (hints : List Bytes) (offered : List SchemeCode) :
    Option Identity :=
  ms.findSome? fun m => m.choose offered hints

/-- Whether there is an identity at all. -/
def hasIdentities (ms : KeyManagers) : Bool := ms.any (·.hasIdentities)

/-- The identities of all private keys of a store, in order. -/
def identities (password : Option Secret) (store : CredentialStore) :
    Except KeyRecoveryError (List Identity) :=
  store.keyEntries.mapM fun (label, chain, key) =>
    (Identity.derive password label chain key).mapError (⟨label, ·⟩)

/-- The one manager of all identities of a store, of which there has to be one. -/
def derive (password : Option Secret) (store : CredentialStore) :
    Except KeyRecoveryError KeyManagers := do
  match ← identities password store with
  | [] => throw ⟨"*", .noKeys⟩
  | all => return [⟨all⟩]

end KeyManagers

end PeerTrust
