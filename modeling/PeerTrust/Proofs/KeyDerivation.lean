import PeerTrust.Key.Manager
import PeerTrust.Proofs.TrustAnchors

/-!
# Which identities a store gives

Private keys are read, and compared with the chains beside them, by a provider of cryptography. What
comes of a whole store does not depend on how the provider does so.

* `KeyProvider` is what a provider has to offer, `KeyProvider.derive` what becomes of a store then;
* `StoredKey.Recovers` says which octets a stored key is: `StoredKey.recover_eq_ok_iff`;
* `KeyProvider.Usable` and `KeyProvider.Fails` are when an entry is an identity and what is wrong
  with it if it is none: `KeyProvider.identity_eq_ok_iff`, `KeyProvider.identity_eq_error_iff`;
* `KeyProvider.Covers` says what that makes of all entries, `KeyProvider.derive_covers` proves it of
  every provider and every store;
* `CredentialStore.chain_of_load`: in a store that was loaded, chains are read again as they are;
* `KeyProvider.platform` is the provider of this program: `KeyProvider.derive_platform`.

`KeyProvider.derives_whole_store` puts these together.
-/

namespace PeerTrust

/-! ## 1. Providers -/

/-- What comes of comparing a key with a chain. -/
inductive KeyMatch where
  | same
  /-- The public half of the key is not known. -/
  | unknown
  | differs (reason : String)
deriving DecidableEq, Repr

/-- What reads private keys and compares them with chains, the leaf first. -/
structure KeyProvider (κ : Type) where
  load : KeyForm → Bytes → Except String κ
  compare : κ → List Certificate → KeyMatch

/-- A key of a provider with its chain and the names of the issuers in it. -/
structure ProvidedIdentity (κ : Type) where
  label : String
  chain : List Certificate
  key : κ
  issuers : List Bytes

/-- Which entry of a store is no identity, and why. -/
structure RecoveryFailure where
  label : String
  reason : String

namespace KeyProvider

variable {κ : Type} (p : KeyProvider κ) (password : Option Secret)

/-- The names of the issuers of the certificates of a chain. Each certificate is read once more for
its own, and passed over where that fails. -/
def issuersOf (chain : List Certificate) : List Bytes :=
  chain.filterMap fun c => (Certificate.ofDer c.der).toOption.map (·.issuer)

/-- The identity of a stored key with its chain. A key that is not known to differ from its chain is
taken. -/
def identity (label : String) (chain : List Certificate) (k : StoredKey) :
    Except String (ProvidedIdentity κ) := do
  let (form, octets) ← (k.recover password).mapError KeyError.message
  let key ← (p.load form octets.octets).mapError ("key rejected by the crypto provider: " ++ ·)
  match p.compare key chain with
  | .differs reason => throw ("key does not match its certificate: " ++ reason)
  | .same | .unknown => return ⟨label, chain, key, issuersOf chain⟩

/-- The identities of all private keys of a store, in order. -/
def identities (store : CredentialStore) : Except RecoveryFailure (List (ProvidedIdentity κ)) :=
  store.keyEntries.mapM fun (label, chain, k) =>
    (p.identity password label chain k).mapError (⟨label, ·⟩)

/-- The managers of a store: one, of all its identities. -/
def derive (store : CredentialStore) :
    Except RecoveryFailure (List (List (ProvidedIdentity κ))) := do
  match ← p.identities password store with
  | [] => throw ⟨"*", "identity store holds no private key entries"⟩
  | all => return [all]

end KeyProvider

/-! ## 2. One key -/

/-- The form and the octets of a stored key: its own or, where it is in a container, those that the
password gives. One that is encrypted in another way has none. -/
inductive StoredKey.Recovers (k : StoredKey) (password : Option Secret) :
    KeyForm → Secret → Prop where
  | pkcs8 (written : k.encoding = .pkcs8) : Recovers k password .pkcs8 k.data
  | pkcs1 (written : k.encoding = .pkcs1) : Recovers k password .pkcs1 k.data
  | sec1 (written : k.encoding = .sec1) : Recovers k password .sec1 k.data
  | opened {content : Secret} (written : k.encoding = .sealed)
      (opens : Sealed.unwrap k.data.octets password = .ok content) :
      Recovers k password .pkcs8 content

namespace StoredKey

variable {k : StoredKey} {password : Option Secret}

theorem recover_eq_ok_iff {form : KeyForm} {octets : Secret} :
    k.recover password = .ok (form, octets) ↔ k.Recovers password form octets := by
  constructor
  · intro h
    unfold recover at h
    split at h
    · cases h
      exact .pkcs8 ‹_›
    · cases h
      exact .pkcs1 ‹_›
    · cases h
      exact .sec1 ‹_›
    · cases h
    · split at h
      · cases h
        exact .opened ‹_› ‹_›
      · cases h
  · intro h
    cases h with
    | pkcs8 written => rw [recover, written]
    | pkcs1 written => rw [recover, written]
    | sec1 written => rw [recover, written]
    | opened written opens => simp only [recover, written, opens]

theorem recover_eq_error_iff {e : KeyError} : k.recover password = .error e ↔
    (k.encoding = .encryptedPkcs8 ∧ e = .encrypted) ∨
      ∃ cause, k.encoding = .sealed ∧ Sealed.unwrap k.data.octets password = .error cause ∧
        e = .notOpened cause := by
  unfold recover
  cases hencoding : k.encoding with
  | pkcs8 => simp
  | pkcs1 => simp
  | sec1 => simp
  | encryptedPkcs8 => simp [eq_comm]
  | «sealed» =>
    cases hopens : Sealed.unwrap k.data.octets password with
    | ok content => simp
    | error cause => simp [eq_comm]

end StoredKey

namespace KeyProvider

variable {κ : Type} (p : KeyProvider κ) (password : Option Secret)

/-- A stored key is recovered, read by the provider and not known to differ from its chain. -/
def Gives (chain : List Certificate) (k : StoredKey) (key : κ) : Prop :=
  (∃ form octets, k.Recovers password form octets ∧ p.load form octets.octets = .ok key) ∧
    ∀ reason, p.compare key chain ≠ .differs reason

/-- A stored key with its chain can be an identity. -/
def Usable (chain : List Certificate) (k : StoredKey) : Prop :=
  ∃ key, p.Gives password chain k key

/-- What is wrong with a stored key and its chain. -/
inductive Fails (chain : List Certificate) (k : StoredKey) : String → Prop where
  | encrypted (written : k.encoding = .encryptedPkcs8) : Fails chain k
      "PBES2-encrypted keys are not supported, store the key as SEALED PRIVATE KEY"
  | notOpened {cause : Sealed.Error} (written : k.encoding = .sealed)
      (closed : Sealed.unwrap k.data.octets password = .error cause) : Fails chain k cause.message
  | rejected {form : KeyForm} {octets : Secret} {cause : String}
      (recovers : k.Recovers password form octets)
      (rejected : p.load form octets.octets = .error cause) :
      Fails chain k ("key rejected by the crypto provider: " ++ cause)
  | contradicted {form : KeyForm} {octets : Secret} {key : κ} {reason : String}
      (recovers : k.Recovers password form octets) (loaded : p.load form octets.octets = .ok key)
      (differs : p.compare key chain = .differs reason) :
      Fails chain k ("key does not match its certificate: " ++ reason)

variable {p password} {label : String} {chain : List Certificate} {k : StoredKey}

/-- **A stored key is an identity exactly if it can be one**, with its own name and chain and the
issuers of the chain. -/
theorem identity_eq_ok_iff {i : ProvidedIdentity κ} : p.identity password label chain k = .ok i ↔
    ∃ key, p.Gives password chain k key ∧ i = ⟨label, chain, key, issuersOf chain⟩ := by
  simp only [identity, bind_eq_ok_iff, mapError_eq_ok_iff, Prod.exists,
    StoredKey.recover_eq_ok_iff]
  constructor
  · rintro ⟨form, octets, hrecovers, key, hload, h⟩
    refine ⟨key, ⟨⟨form, octets, hrecovers, hload⟩, fun reason hdiffers => ?_⟩, ?_⟩
    · rw [hdiffers] at h
      cases h
    · split at h
      · cases h
      · cases h
        rfl
      · cases h
        rfl
  · rintro ⟨key, ⟨⟨form, octets, hrecovers, hload⟩, hagrees⟩, rfl⟩
    refine ⟨form, octets, hrecovers, key, hload, ?_⟩
    split
    · rename_i reason hdiffers
      exact absurd hdiffers (hagrees reason)
    · rfl
    · rfl

/-- **It is refused for what is wrong with it.** -/
theorem identity_eq_error_iff {reason : String} :
    p.identity password label chain k = .error reason ↔ p.Fails password chain k reason := by
  simp only [identity, bind_eq_error_iff, mapError_eq_ok_iff, mapError_eq_error_iff, Prod.exists,
    StoredKey.recover_eq_ok_iff, StoredKey.recover_eq_error_iff]
  constructor
  · rintro (⟨e, ⟨hwritten, rfl⟩ | ⟨cause, hwritten, hclosed, rfl⟩, rfl⟩ |
      ⟨form, octets, hrecovers, ⟨cause, hload, rfl⟩ | ⟨key, hload, h⟩⟩)
    · exact .encrypted hwritten
    · exact .notOpened hwritten hclosed
    · exact .rejected hrecovers hload
    · split at h
      · rename_i hdiffers
        cases h
        exact .contradicted hrecovers hload hdiffers
      · cases h
      · cases h
  · intro h
    cases h with
    | encrypted hwritten => exact .inl ⟨_, .inl ⟨hwritten, rfl⟩, rfl⟩
    | notOpened hwritten hclosed => exact .inl ⟨_, .inr ⟨_, hwritten, hclosed, rfl⟩, rfl⟩
    | rejected hrecovers hload => exact .inr ⟨_, _, hrecovers, .inl ⟨_, hload, rfl⟩⟩
    | contradicted hrecovers hload hdiffers =>
      refine .inr ⟨_, _, hrecovers, .inr ⟨_, hload, ?_⟩⟩
      rw [hdiffers]
      rfl

end KeyProvider

/-! ## 3. All keys of a store -/

/-- Whether an entry is a private key. -/
def StoreEntry.isPrivateKey : StoreEntry → Bool
  | privateKey _ _ _ => true
  | trusted _ _ => false

/-- Name, chain and key of an entry that is a private key. -/
def StoreEntry.keyPart? : StoreEntry → Option (String × List Certificate × StoredKey)
  | privateKey label chain k => some (label, chain, k)
  | trusted _ _ => none

theorem StoreEntry.keyPart?_eq_some_iff {entry : StoreEntry} {label : String}
    {chain : List Certificate} {k : StoredKey} :
    entry.keyPart? = some (label, chain, k) ↔ entry = .privateKey label chain k := by
  cases entry with
  | privateKey label' chain' k' => simp [keyPart?]
  | trusted label' c => simp [keyPart?]

namespace CredentialStore

variable {store : CredentialStore} {label : String} {chain : List Certificate} {k : StoredKey}

theorem keyEntries_eq (store : CredentialStore) :
    store.keyEntries = store.entries.filterMap StoreEntry.keyPart? :=
  List.filterMap_congr fun entry _ => by cases entry <;> rfl

theorem mem_keyEntries_iff :
    (label, chain, k) ∈ store.keyEntries ↔ .privateKey label chain k ∈ store.entries := by
  simp only [keyEntries_eq, List.mem_filterMap, StoreEntry.keyPart?_eq_some_iff, exists_eq_right]

theorem keyEntries_eq_nil_iff :
    store.keyEntries = [] ↔ ∀ entry ∈ store.entries, entry.isPrivateKey = false := by
  rw [keyEntries_eq, List.filterMap_eq_nil_iff]
  refine forall₂_congr fun entry _ => ?_
  cases entry <;> simp [StoreEntry.keyPart?, StoreEntry.isPrivateKey]

/-- What is trusted on its own does not matter for the keys. -/
theorem keyEntries_filter (store : CredentialStore) : store.keyEntries =
    (store.entries.filter StoreEntry.isPrivateKey).filterMap StoreEntry.keyPart? := by
  rw [keyEntries_eq, List.filterMap_filter]
  exact List.filterMap_congr fun entry _ => by cases entry <;> rfl

/-- A place among the keys of a store is one among its entries. -/
theorem keyEntries_eq_append_iff {before after : List (String × List Certificate × StoredKey)} :
    store.keyEntries = before ++ (label, chain, k) :: after ↔
      ∃ front back, store.entries = front ++ .privateKey label chain k :: back ∧
        front.filterMap StoreEntry.keyPart? = before ∧
        back.filterMap StoreEntry.keyPart? = after := by
  rw [keyEntries_eq, List.filterMap_eq_append_iff]
  constructor
  · rintro ⟨front, rest, hentries, hfront, hrest⟩
    obtain ⟨skipped, entry, back, rfl, hskipped, hentry, hback⟩ :=
      List.filterMap_eq_cons_iff.mp hrest
    rw [StoreEntry.keyPart?_eq_some_iff] at hentry
    subst hentry
    refine ⟨front ++ skipped, back, by rw [hentries, List.append_assoc], ?_, hback⟩
    rw [List.filterMap_append, List.filterMap_eq_nil_iff.mpr hskipped, List.append_nil, hfront]
  · rintro ⟨front, back, hentries, hfront, hback⟩
    refine ⟨front, .privateKey label chain k :: back, hentries, hfront, ?_⟩
    rw [← hback]
    rfl

end CredentialStore

namespace KeyProvider

variable {κ : Type} (p : KeyProvider κ) (password : Option Secret)

/-- An identity is the one of a private key entry: it has the name and the chain of the entry, the
key that the entry gives, and the issuers of the chain. -/
structure IsOf (entry : String × List Certificate × StoredKey) (i : ProvidedIdentity κ) :
    Prop where
  label : i.label = entry.1
  chain : i.chain = entry.2.1
  key : p.Gives password entry.2.1 entry.2.2 i.key
  issuers : i.issuers = issuersOf entry.2.1

/-- All private keys among some entries can be identities. -/
def AllUsable (entries : List StoreEntry) : Prop :=
  ∀ label chain k, .privateKey label chain k ∈ entries → p.Usable password chain k

/-- What is wrong with the entries of a store: there is no private key, or else the first of them
that can be no identity. -/
inductive FailsFirst (entries : List StoreEntry) : RecoveryFailure → Prop where
  | none (none : ∀ entry ∈ entries, entry.isPrivateKey = false) :
      FailsFirst entries ⟨"*", "identity store holds no private key entries"⟩
  | entry {front back : List StoreEntry} {label : String} {chain : List Certificate} {k : StoredKey}
      {reason : String} (entries_eq : entries = front ++ .privateKey label chain k :: back)
      (earlier : p.AllUsable password front) (fails : p.Fails password chain k reason) :
      FailsFirst entries ⟨label, reason⟩

/-- What becomes of a whole store. -/
structure Covers (store : CredentialStore) : Prop where
  /-- There are managers exactly if there is a private key, and all of them can be identities. -/
  succeeds : (∃ managers, p.derive password store = .ok managers) ↔
    (∃ entry ∈ store.entries, entry.isPrivateKey = true) ∧ p.AllUsable password store.entries
  /-- There is one manager then, with the identities of all private keys in order. -/
  identities : ∀ managers, p.derive password store = .ok managers →
    ∃ is, managers = [is] ∧ List.Forall₂ (p.IsOf password) store.keyEntries is
  /-- Otherwise it is said which private key is the first that can be none. -/
  fails : ∀ e, p.derive password store = .error e ↔ p.FailsFirst password store.entries e
  /-- What is trusted on its own, and what CRLs there are, does not matter. -/
  others : ∀ other : CredentialStore,
    other.entries.filter StoreEntry.isPrivateKey = store.entries.filter StoreEntry.isPrivateKey →
      p.derive password other = p.derive password store

variable {p password} {store : CredentialStore}

theorem identity_eq_ok_iff_isOf {entry : String × List Certificate × StoredKey}
    {i : ProvidedIdentity κ} :
    p.identity password entry.1 entry.2.1 entry.2.2 = .ok i ↔ p.IsOf password entry i := by
  rw [identity_eq_ok_iff]
  constructor
  · rintro ⟨key, hgives, rfl⟩
    exact ⟨rfl, rfl, hgives, rfl⟩
  · obtain ⟨label, chain, key, issuers⟩ := i
    rintro ⟨rfl, rfl, hgives, rfl⟩
    exact ⟨key, hgives, rfl⟩

theorem exists_isOf_iff {entry : String × List Certificate × StoredKey} :
    (∃ i, p.IsOf password entry i) ↔ p.Usable password entry.2.1 entry.2.2 := by
  constructor
  · rintro ⟨i, hi⟩
    exact ⟨i.key, hi.key⟩
  · rintro ⟨key, hgives⟩
    exact ⟨⟨entry.1, entry.2.1, key, issuersOf entry.2.1⟩, rfl, rfl, hgives, rfl⟩

theorem allUsable_iff {entries : List StoreEntry} : p.AllUsable password entries ↔
    ∀ entry ∈ entries.filterMap StoreEntry.keyPart?, ∃ i, p.IsOf password entry i := by
  simp only [exists_isOf_iff, Prod.forall, List.mem_filterMap,
    StoreEntry.keyPart?_eq_some_iff, exists_eq_right, AllUsable]

theorem identities_eq_ok_iff {is : List (ProvidedIdentity κ)} :
    p.identities password store = .ok is ↔
      List.Forall₂ (p.IsOf password) store.keyEntries is := by
  rw [identities, mapM_eq_ok_iff_forall₂]
  simp only [mapError_eq_ok_iff, identity_eq_ok_iff_isOf]

theorem identities_eq_error_iff {e : RecoveryFailure} : p.identities password store = .error e ↔
    ∃ front label chain k back reason,
      store.entries = front ++ .privateKey label chain k :: back ∧ p.AllUsable password front ∧
        p.Fails password chain k reason ∧ e = ⟨label, reason⟩ := by
  rw [identities, mapM_eq_error_iff]
  simp only [mapError_eq_ok_iff, mapError_eq_error_iff, identity_eq_ok_iff_isOf,
    identity_eq_error_iff, Prod.exists, CredentialStore.keyEntries_eq_append_iff, allUsable_iff]
  constructor
  · rintro ⟨_, label, chain, k, _, ⟨front, back, hentries, rfl, rfl⟩, hearlier, reason, hfails,
      rfl⟩
    exact ⟨front, label, chain, k, back, reason, hentries, hearlier, hfails, rfl⟩
  · rintro ⟨front, label, chain, k, back, reason, hentries, hearlier, hfails, rfl⟩
    exact ⟨_, label, chain, k, _, ⟨front, back, hentries, rfl, rfl⟩, hearlier, reason, hfails, rfl⟩

theorem derive_eq_ok_iff {managers : List (List (ProvidedIdentity κ))} :
    p.derive password store = .ok managers ↔ store.keyEntries ≠ [] ∧
      ∃ is, managers = [is] ∧ List.Forall₂ (p.IsOf password) store.keyEntries is := by
  simp only [derive, bind_eq_ok_iff, identities_eq_ok_iff]
  constructor
  · rintro ⟨is, his, h⟩
    cases is with
    | nil => cases h
    | cons i is =>
      cases h
      refine ⟨fun hnil => ?_, _, rfl, his⟩
      rw [hnil] at his
      cases his
  · rintro ⟨hne, is, rfl, his⟩
    refine ⟨is, his, ?_⟩
    cases is with
    | nil => exact absurd (List.forall₂_nil_right_iff.mp his) hne
    | cons i is => rfl

theorem derive_eq_error_iff {e : RecoveryFailure} :
    p.derive password store = .error e ↔ p.FailsFirst password store.entries e := by
  simp only [derive, bind_eq_error_iff, identities_eq_ok_iff, identities_eq_error_iff]
  constructor
  · rintro (⟨front, label, chain, k, back, reason, hentries, hearlier, hfails, rfl⟩ |
      ⟨is, his, h⟩)
    · exact .entry hentries hearlier hfails
    · cases is with
      | nil =>
        cases h
        exact .none (CredentialStore.keyEntries_eq_nil_iff.mp (List.forall₂_nil_right_iff.mp his))
      | cons i is => cases h
  · intro h
    cases h with
    | none hnone =>
      refine .inr ⟨[], ?_, rfl⟩
      rw [CredentialStore.keyEntries_eq_nil_iff.mpr hnone]
      exact .nil
    | entry hentries hearlier hfails =>
      exact .inl ⟨_, _, _, _, _, _, hentries, hearlier, hfails, rfl⟩

/-- **Of every store, all keys become identities or none does.** -/
theorem derive_covers (p : KeyProvider κ) (password : Option Secret) (store : CredentialStore) :
    p.Covers password store where
  succeeds := by
    have hkey : store.keyEntries ≠ [] ↔ ∃ entry ∈ store.entries, entry.isPrivateKey = true := by
      rw [ne_eq, CredentialStore.keyEntries_eq_nil_iff]
      simp only [not_forall, Bool.not_eq_false, exists_prop]
    rw [← hkey, allUsable_iff, ← CredentialStore.keyEntries_eq]
    simp only [derive_eq_ok_iff]
    constructor
    · rintro ⟨_, hne, is, -, his⟩
      exact ⟨hne, exists_of_forall₂ his⟩
    · rintro ⟨hne, husable⟩
      obtain ⟨is, his⟩ := exists_forall₂ husable
      exact ⟨[is], hne, is, rfl, his⟩
  identities managers h := (derive_eq_ok_iff.mp h).2
  fails e := derive_eq_error_iff
  others other h := by
    have hkeys : other.keyEntries = store.keyEntries := by
      rw [CredentialStore.keyEntries_filter, h, ← CredentialStore.keyEntries_filter]
    rw [derive, derive, identities, identities, hkeys]

end KeyProvider

/-! ## 4. Stores that were loaded -/

namespace CredentialStore

variable {store : CredentialStore} {role : StoreRole} {files : Files} {config : StoreConfig}
  {label : String} {chain : List Certificate} {k : StoredKey}

/-- A chain has a leaf, and its certificates are read again as they are. -/
structure IsReadable (chain : List Certificate) : Prop where
  leaf : chain ≠ []
  certificates : ∀ c ∈ chain, Certificate.ofDer c.der = .ok c

/-- The chains of a store that was loaded are readable. -/
theorem chain_of_load (hload : load role files config = .ok store)
    (hentry : .privateKey label chain k ∈ store.entries) : IsReadable chain := by
  obtain ⟨_, content, -, -, hparse⟩ := text_of_load hload
  obtain ⟨blocks, -, hmade⟩ := madeOf_of_parse hparse
  constructor
  · obtain ⟨number, hat⟩ := List.mem_iff_getElem?.mp hentry
    obtain ⟨c, rest, hchain, -⟩ := hmade.names number _ hat
    rw [certificatesIn] at hchain
    rw [hchain]
    exact List.cons_ne_nil c rest
  · intro c hc
    exact ofDer_of_holds hmade.certificates c (List.mem_flatMap.mpr ⟨_, hentry, hc⟩)

theorem IsReadable.issuersOf_eq (h : IsReadable chain) :
    KeyProvider.issuersOf chain = chain.map (·.issuer) := by
  rw [KeyProvider.issuersOf, ← List.filterMap_eq_map]
  refine List.filterMap_congr fun c hc => ?_
  rw [h.certificates c hc]
  rfl

end CredentialStore

/-! ## 5. The provider of this program -/

namespace KeyProvider

/-- Keys that are RSA keys or on a known curve. Their public halves are always known, and compared
with the one that the leaf holds. -/
def platform : KeyProvider SigningKey where
  load form octets :=
    match SigningKey.read? form octets with
    | some key => .ok key
    | none => .error "failed to parse private key as RSA, ECDSA, or EdDSA"
  compare key
    | [] => .differs "peer sent no certificates"
    | leaf :: _ =>
      match Pkix.Certificate.ofDer leaf.der with
      | .error e => .differs ("invalid peer certificate: " ++ e.message)
      | .ok c =>
        if c.writtenKey = key.publicKey then .same
        else .differs "keys may not be consistent: KeyMismatch"

/-- An identity of this program, as one of its provider. -/
def ofIdentity (i : Identity) : ProvidedIdentity SigningKey := ⟨i.label, i.chain, i.key, i.issuers⟩

/-- The managers of this program, as those of its provider. -/
def ofManagers (managers : KeyManagers) : List (List (ProvidedIdentity SigningKey)) :=
  managers.map fun m => m.identities.map ofIdentity

/-- The failures of this program, as those of its provider. -/
def ofFailure (e : KeyRecoveryError) : RecoveryFailure := ⟨e.label, e.reason.message⟩

variable {password : Option Secret} {label : String} {chain : List Certificate} {k : StoredKey}
  {store : CredentialStore}

/-- A leaf agrees with a key, or it is said what is wrong with it. -/
theorem compare_platform {key : SigningKey} {leaf : Certificate} {rest : List Certificate} :
    platform.compare key (leaf :: rest) = .same ∧ Identity.checkLeaf key leaf = .ok () ∨
      ∃ reason e, platform.compare key (leaf :: rest) = .differs reason ∧
        Identity.checkLeaf key leaf = .error e ∧
        e.message = "key does not match its certificate: " ++ reason := by
  cases hread : Pkix.Certificate.ofDer leaf.der with
  | error e =>
    refine .inr ⟨"invalid peer certificate: " ++ e.message, .unreadableLeaf e, ?_, ?_, ?_⟩
    · simp only [platform, hread]
    · simp only [Identity.checkLeaf, hread]
    · rw [← String.append_assoc]
      rfl
  | ok c =>
    by_cases hkey : c.writtenKey = key.publicKey
    · refine .inl ⟨?_, ?_⟩
      · simp only [platform, hread, if_pos hkey]
      · simp only [Identity.checkLeaf, hread, if_pos hkey]
    · refine .inr ⟨"keys may not be consistent: KeyMismatch", .foreignLeaf, ?_, ?_, rfl⟩
      · simp only [platform, hread, if_neg hkey]
      · simp only [Identity.checkLeaf, hread, if_neg hkey]

theorem identity_platform (h : CredentialStore.IsReadable chain) :
    platform.identity password label chain k =
      ((Identity.derive password label chain k).mapError KeyError.message).map ofIdentity := by
  obtain ⟨leaf, rest, rfl⟩ := List.exists_cons_of_ne_nil h.leaf
  simp only [identity, Identity.derive, StoredKey.signingKey, bind, Except.bind]
  cases k.recover password with
  | error e => rfl
  | ok recovered =>
    obtain ⟨form, octets⟩ := recovered
    simp only [mapError_ok]
    cases hread : SigningKey.read? form octets.octets with
    | none =>
      simp only [platform, hread]
      rfl
    | some key =>
      have hload : platform.load form octets.octets = .ok key := by simp only [platform, hread]
      have hfirst : (leaf :: rest).head?.forM (Identity.checkLeaf key) =
        Identity.checkLeaf key leaf := rfl
      simp only [hload, hfirst, mapError_ok, pure, Except.pure]
      rcases @compare_platform key leaf rest with
        ⟨hsame, hleaf⟩ | ⟨reason, e, hdiffers, hleaf, hmessage⟩
      · rw [hsame, hleaf, h.issuersOf_eq]
        rfl
      · rw [hdiffers, hleaf, mapError_error, hmessage]
        rfl

/-- **The managers of this program are those of its provider**, over a store that was loaded. -/
theorem derive_platform (h : ∀ label chain k, .privateKey label chain k ∈ store.entries →
    CredentialStore.IsReadable chain) : platform.derive password store =
      ((KeyManagers.derive password store).mapError ofFailure).map ofManagers := by
  have hidentities : platform.identities password store =
      ((KeyManagers.identities password store).mapError ofFailure).map (·.map ofIdentity) := by
    refine mapM_eq_map_mapM fun ⟨label, chain, k⟩ hentry => ?_
    simp only [identity_platform (h label chain k (CredentialStore.mem_keyEntries_iff.mp hentry))]
    cases Identity.derive password label chain k <;> rfl
  simp only [derive, KeyManagers.derive, hidentities]
  cases KeyManagers.identities password store with
  | error e => rfl
  | ok is => cases is <;> rfl

/-- **What becomes of the keys of a store.** For every provider, password and store there are
managers exactly if the store has a private key and every one can be an identity, which they are
then, in order; otherwise the failure names the first one that can be none. Of a store that was
loaded, the issuers of an identity are those of its chain, and the managers of this program are
those of its own provider. -/
theorem derives_whole_store (password : Option Secret) (store : CredentialStore) :
    (∀ (κ : Type) (p : KeyProvider κ), p.Covers password store) ∧
      ∀ role files config, CredentialStore.load role files config = .ok store →
        (∀ label chain k, .privateKey label chain k ∈ store.entries →
          chain ≠ [] ∧ issuersOf chain = chain.map (·.issuer)) ∧
        platform.derive password store =
          ((KeyManagers.derive password store).mapError ofFailure).map ofManagers := by
  refine ⟨fun κ p => derive_covers p password store, fun role files config hload => ⟨?_, ?_⟩⟩
  · intro label chain k hentry
    have hchain := CredentialStore.chain_of_load hload hentry
    exact ⟨hchain.leaf, hchain.issuersOf_eq⟩
  · exact derive_platform fun label chain k hentry => CredentialStore.chain_of_load hload hentry

/-- A provider that takes all octets as a key, and knows of no public half. -/
def takingAll : KeyProvider Bytes := ⟨fun _ octets => .ok octets, fun _ _ => .unknown⟩

end KeyProvider

open StoreSample PathSample CredentialStore in
/-- Octets that are no key, beside a chain: a provider that takes all octets has an identity of
them, this program has none. -/
theorem KeyProvider.derives_store_of_octets : ∃ files config store,
    CredentialStore.load .identity files config = .ok store ∧
      (∃ managers, takingAll.derive none store = .ok managers) ∧
      ∃ e, KeyManagers.derive none store = .error e ∧ e.label = "alice" := by
  let store := (madeWith .pkcs8 [1, 2, 3]).finish
  have hparse : parse (mixedBlocks.flatMap Pem.Block.octets) = .ok store :=
    ((readsAs_blocksWith writable_key).parse_eq (List.cons_ne_nil _ _)).trans
      (sorts_blocksWith .pkcs8 [1, 2, 3]).finishes
  have hdeclared : Declared (fun _ => .ok (mixedBlocks.flatMap Pem.Block.octets))
      ⟨"identity.pem", none, "PEM"⟩ .pem none _ := ⟨rfl, by decide, rfl⟩
  have hload := loadsAs_plain _ .identity _ _ hdeclared
  rw [hparse, mapError_ok] at hload
  obtain ⟨hcovers, hloaded⟩ := derives_whole_store none store
  obtain ⟨-, hplatform⟩ := hloaded _ _ _ hload
  -- the store has one key, whose octets are recovered as they are
  let key : StoredKey := ⟨.pkcs8, ⟨[1, 2, 3]⟩⟩
  have hentries : store.entries =
      [] ++ .privateKey "alice" [leaf, mid] key :: [.trusted "mid" renewed] := rfl
  have hrecovers : key.Recovers none .pkcs8 ⟨[1, 2, 3]⟩ := .pkcs8 rfl
  refine ⟨_, _, store, hload, (hcovers Bytes takingAll).succeeds.mpr ⟨?_, ?_⟩, ?_⟩
  · exact ⟨_, by rw [hentries]; exact List.mem_cons_self, rfl⟩
  · intro label chain k hentry
    rw [hentries] at hentry
    simp only [List.nil_append, List.mem_cons, List.not_mem_nil, or_false, reduceCtorEq,
      StoreEntry.privateKey.injEq] at hentry
    obtain ⟨-, -, rfl⟩ := hentry
    exact ⟨[1, 2, 3], ⟨_, _, hrecovers, rfl⟩, nofun⟩
  · have hrejected : platform.Fails none [leaf, mid] key _ :=
      .rejected hrecovers (by decide : platform.load .pkcs8 [1, 2, 3] =
        .error "failed to parse private key as RSA, ECDSA, or EdDSA")
    have hfails := ((hcovers SigningKey platform).fails _).mpr
      (.entry hentries nofun hrejected)
    rw [hplatform] at hfails
    cases hderive : KeyManagers.derive none store with
    | error e =>
      rw [hderive] at hfails
      exact ⟨e, rfl, congrArg RecoveryFailure.label (Except.error.inj hfails)⟩
    | ok managers =>
      rw [hderive] at hfails
      cases hfails

end PeerTrust
