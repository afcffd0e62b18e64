import PeerTrust.Certificate
import PeerTrust.Config
import PeerTrust.Store.Sealed

/-!
# Credential stores

A store is a file of PEM blocks. The certificates before a private key are its chain, the leaf
first; those after the last key are trusted on their own. CRLs may stand anywhere.

* `CredentialStore` is what a store holds, in order;
* `CredentialStore.ofBlocks` sorts blocks into entries, `CredentialStore.parse` reads a file;
* `CredentialStore.load` reads the store of a configuration, sealed or not.
-/

namespace PeerTrust

/-! ## 1. Entries -/

/-- How a private key is written. -/
inductive KeyEncoding where
  | pkcs8
  | pkcs1
  | sec1
  /-- In a container, under a password. -/
  | sealed
  /-- Encrypted in a way that is not supported. -/
  | encryptedPkcs8
deriving DecidableEq, Repr, Inhabited

/-- The encoding that the tag of a block names. -/
def KeyEncoding.ofTag? (tag : String) : Option KeyEncoding :=
  if tag = "PRIVATE KEY" then some pkcs8
  else if tag = "RSA PRIVATE KEY" then some pkcs1
  else if tag = "EC PRIVATE KEY" then some sec1
  else if tag = Sealed.keyTag then some sealed
  else if tag = "ENCRYPTED PRIVATE KEY" then some encryptedPkcs8
  else none

/-- A private key as it is stored. -/
structure StoredKey where
  encoding : KeyEncoding
  data : Secret
deriving DecidableEq, Repr, Inhabited

/-- One entry of a store. -/
inductive StoreEntry where
  | privateKey (label : String) (chain : List Certificate) (key : StoredKey)
  | trusted (label : String) (certificate : Certificate)
deriving DecidableEq, Repr, Inhabited

/-- The name of an entry: the common name of its first certificate, or else its number. -/
def StoreEntry.labelOf (c : Certificate) (number : Nat) : String :=
  c.commonName.getD s!"entry-{number}"

/-- The name of an entry. -/
def StoreEntry.label : StoreEntry → String
  | privateKey label _ _ => label
  | trusted label _ => label

/-! ## 2. Errors -/

/-- Why octets are no store of the declared type. -/
inductive FormatError where
  | sealedContent
  | invalidPem (cause : Pem.Error)
  | noBlocks
  | badCertificate (index : Nat) (cause : CertificateError)
  | keyWithoutChain (index : Nat)
  | unexpectedBlock (index : Nat) (tag : String)
  | nothingSealed
  | notOpened (cause : Sealed.Error)
deriving DecidableEq, Repr, Inhabited

/-- The wording of an error. -/
def FormatError.message : FormatError → String
  | sealedContent => "content is a sealed container, declare the store as SEALED"
  | invalidPem cause => s!"invalid PEM: {cause.message}"
  | noBlocks => "no PEM blocks found"
  | badCertificate index cause => s!"block {index}: Certificate parsing failed: {cause.message}"
  | keyWithoutChain index => s!"block {index}: private key without a certificate chain"
  | unexpectedBlock index tag => s!"block {index}: unexpected PEM block '{tag}'"
  | nothingSealed => "a password was supplied but nothing in the PEM store is sealed"
  | notOpened cause => cause.message

/-- Why a store could not be loaded. -/
inductive StoreError where
  | notFound (role : StoreRole) (path : String)
  | unreadable (role : StoreRole) (path : String) (cause : FileError)
  | badFormat (role : StoreRole) (path : String) (type : StoreType) (cause : FormatError)
  | unsupportedType (role : StoreRole) (type : String)
deriving DecidableEq, Repr, Inhabited

/-- The wording of an error. -/
def StoreError.message : StoreError → String
  | notFound role path => s!"{role.name} store not found at {path}"
  | unreadable role path cause =>
    s!"{role.name} store at {path} could not be read: {cause.message}"
  | badFormat role path type cause =>
    s!"{role.name} store at {path} is not a valid {type.name} store: {cause.message}"
  | unsupportedType role type => s!"{role.name} store type '{type}' is not supported"

/-! ## 3. Stores -/

/-- What a store holds. -/
structure CredentialStore where
  entries : List StoreEntry
  /-- The octets of the CRLs in it. -/
  crls : List Bytes
deriving DecidableEq, Repr, Inhabited

namespace CredentialStore

/-- The entries of certificates that are trusted on their own, numbered from the given one. -/
def trustedEntries : (number : Nat) → List Certificate → List StoreEntry
  | _, [] => []
  | number, c :: rest => .trusted (StoreEntry.labelOf c number) c :: trustedEntries (number + 1) rest

/-- Sorts blocks into entries. `index` counts the blocks passed, `number` the entries made, and
`pending` are the certificates since the last key. -/
def ofBlocks : (index number : Nat) → (pending : List Certificate) → List Pem.Block →
    Except FormatError CredentialStore
  | _, number, pending, [] => .ok ⟨trustedEntries number pending, []⟩
  | index, number, pending, block :: rest =>
    if block.tag = "CERTIFICATE" then
      match Certificate.ofDer block.contents with
      | .error e => .error (.badCertificate index e)
      | .ok c => ofBlocks (index + 1) number (pending ++ [c]) rest
    else if block.tag = "X509 CRL" then do
      let store ← ofBlocks (index + 1) number pending rest
      return { store with crls := block.contents :: store.crls }
    else
      match KeyEncoding.ofTag? block.tag, pending with
      | none, _ => .error (.unexpectedBlock index block.tag)
      | some _, [] => .error (.keyWithoutChain index)
      | some encoding, leaf :: chain => do
        let store ← ofBlocks (index + 1) (number + 1) [] rest
        let entry := .privateKey (StoreEntry.labelOf leaf number) (leaf :: chain)
          ⟨encoding, ⟨block.contents⟩⟩
        return { store with entries := entry :: store.entries }

/-- Reads a file of blocks. -/
def parse (content : Bytes) : Except FormatError CredentialStore :=
  if Sealed.isSealed content then .error .sealedContent
  else
    match Pem.read content with
    | .error e => .error (.invalidPem e)
    | .ok [] => .error .noBlocks
    | .ok blocks => ofBlocks 0 0 [] blocks

/-- Whether an entry is a private key in a container. -/
def isSealedKey : StoreEntry → Bool
  | .privateKey _ _ key => key.encoding = .sealed
  | .trusted _ _ => false

/-- Reads a file of a type with the password for it, if any. -/
def read (type : StoreType) (password : Option Secret) (content : Bytes) :
    Except FormatError CredentialStore :=
  match type with
  | .pem => do
    let store ← parse content
    if password.isSome ∧ !store.entries.any isSealedKey then throw .nothingSealed
    return store
  | .sealed =>
    match Sealed.unwrap content password with
    | .error e => .error (.notOpened e)
    | .ok opened => parse opened.octets

/-- The type that a store is declared to be of. -/
def typeOf (role : StoreRole) (type : String) : Except StoreError StoreType :=
  match StoreType.parse? type with
  | some t => .ok t
  | none => .error (.unsupportedType role type)

/-- Reads the octets of a store. -/
def readFile (role : StoreRole) (files : Files) (path : String) : Except StoreError Bytes :=
  match files path with
  | .ok content => .ok content
  | .error .notFound => .error (.notFound role path)
  | .error e => .error (.unreadable role path e)

/-- Loads the store of a configuration. -/
def load (role : StoreRole) (files : Files) (config : StoreConfig) :
    Except StoreError CredentialStore := do
  let type ← typeOf role config.type
  let content ← readFile role files config.path
  (read type config.password content).mapError (.badFormat role config.path type)

/-- The entries that are private keys: name, chain and key. -/
def keyEntries (s : CredentialStore) : List (String × List Certificate × StoredKey) :=
  s.entries.filterMap fun
    | .privateKey label chain key => some (label, chain, key)
    | .trusted _ _ => none

/-- The certificates that are trusted on their own. -/
def trusted (s : CredentialStore) : List Certificate :=
  s.entries.filterMap fun
    | .trusted _ c => some c
    | .privateKey _ _ _ => none

end CredentialStore

end PeerTrust
