import PeerTrust.Proofs.CrlAcceptance
import PeerTrust.Proofs.Results
import PeerTrust.Trust.Verifier

/-!
# What stores, keys and CRLs load as

Every part that is loaded comes with two descriptions: one of what it is where all is right, and one
of the first thing that is wrong with it.

* `CredentialStore.Written` and `CredentialStore.Malformed` are those of a file,
  `CredentialStore.Available` and `CredentialStore.Unavailable` those of the store of a
  configuration: `CredentialStore.load_eq_ok_iff`, `CredentialStore.load_eq_error_iff`;
* `Identity.Usable` and `Identity.Unusable` are those of a stored key with its chain,
  `KeyManagers.derive_eq_ok_iff` and `KeyManagers.Refused` those of all keys of a store;
* `LocalCrls.load_eq_ok_iff_forall₂` and `LocalCrls.Refused` are those of CRLs,
  `PeerVerifier.derive_eq_ok_iff` is when there is an anchor.
-/

namespace PeerTrust

/-! ## 1. Stores -/

namespace CredentialStore

variable {type : StoreType} {password : Option Secret} {content : Bytes} {store : CredentialStore}
  {role : StoreRole} {files : Files} {config : StoreConfig}

/-- Octets are a well-formed store of a type, under a password or without one. A password is not for
a store in which nothing is sealed. -/
inductive Written (password : Option Secret) (content : Bytes) (store : CredentialStore) :
    StoreType → Prop where
  | pem (parsed : parse content = .ok store)
      (needed : password.isSome → ∃ entry ∈ store.entries, isSealedKey entry = true) :
      Written password content store .pem
  | sealed {opened : Secret} (opens : Sealed.unwrap content password = .ok opened)
      (parsed : parse opened.octets = .ok store) : Written password content store .sealed

/-- Octets are no well-formed store of a type, for this reason. -/
inductive Malformed (password : Option Secret) (content : Bytes) :
    StoreType → FormatError → Prop where
  | pem {e : FormatError} (rejected : parse content = .error e) :
      Malformed password content .pem e
  | needless {store : CredentialStore} (parsed : parse content = .ok store)
      (given : password.isSome) (plain : ∀ entry ∈ store.entries, isSealedKey entry = false) :
      Malformed password content .pem .nothingSealed
  | closed {e : Sealed.Error} (closed : Sealed.unwrap content password = .error e) :
      Malformed password content .sealed (.notOpened e)
  | inside {opened : Secret} {e : FormatError} (opens : Sealed.unwrap content password = .ok opened)
      (rejected : parse opened.octets = .error e) : Malformed password content .sealed e

theorem any_isSealedKey_iff : store.entries.any isSealedKey = true ↔
    ∃ entry ∈ store.entries, isSealedKey entry = true := List.any_eq_true

theorem read_eq_ok_iff : read type password content = .ok store ↔
    Written password content store type := by
  cases type with
  | pem =>
    constructor
    · intro h
      obtain ⟨store', hparse, h⟩ := bind_eq_ok_iff.mp h
      split at h
      · cases h
      · rename_i hsealed
        cases h
        exact .pem hparse fun hgiven => any_isSealedKey_iff.mp (by simpa [hgiven] using hsealed)
    · intro h
      cases h with
      | pem hparse hneeded =>
        refine bind_eq_ok_iff.mpr ⟨store, hparse, ?_⟩
        have hsealed : ¬ (password.isSome ∧ !store.entries.any isSealedKey) := by
          rintro ⟨hgiven, hnone⟩
          rw [any_isSealedKey_iff.mpr (hneeded hgiven)] at hnone
          cases hnone
        rw [if_neg hsealed]
        rfl
  | sealed =>
    simp only [read]
    constructor
    · intro h
      split at h
      · cases h
      · rename_i opened hopens
        exact .sealed hopens h
    · intro h
      cases h with
      | sealed hopens hparse => rw [hopens]; exact hparse

theorem read_eq_error_iff {e : FormatError} : read type password content = .error e ↔
    Malformed password content type e := by
  cases type with
  | pem =>
    constructor
    · intro h
      rcases bind_eq_error_iff.mp h with hparse | ⟨store, hparse, h⟩
      · exact .pem hparse
      · split at h
        · rename_i hneedless
          cases h
          exact .needless hparse hneedless.1 (by simpa using hneedless.2)
        · cases h
    · intro h
      cases h with
      | pem hparse => exact bind_eq_error_iff.mpr (.inl hparse)
      | @needless store hparse hgiven hplain =>
        refine bind_eq_error_iff.mpr (.inr ⟨store, hparse, ?_⟩)
        have hneedless : password.isSome ∧ !store.entries.any isSealedKey :=
          ⟨hgiven, by simpa using hplain⟩
        rw [if_pos hneedless]
        rfl
  | sealed =>
    simp only [read]
    constructor
    · intro h
      split at h
      · rename_i hclosed
        cases h
        exact .closed hclosed
      · rename_i hopens
        exact .inside hopens h
    · intro h
      cases h with
      | closed hclosed => rw [hclosed]
      | inside hopens hparse => rw [hopens]; exact hparse

/-- The store of a configuration: its type is supported, and its file is readable and well formed
under it and the password. -/
def Available (files : Files) (config : StoreConfig) (store : CredentialStore) : Prop :=
  ∃ type content, StoreType.parse? config.type = some type ∧ files config.path = .ok content ∧
    Written config.password content store type

/-- The first thing that is wrong with the store of a configuration. -/
inductive Unavailable (role : StoreRole) (files : Files) (config : StoreConfig) :
    StoreError → Prop where
  | type (unsupported : StoreType.parse? config.type = none) :
      Unavailable role files config (.unsupportedType role config.type)
  | absent {type : StoreType} (type_eq : StoreType.parse? config.type = some type)
      (absent : files config.path = .error .notFound) :
      Unavailable role files config (.notFound role config.path)
  | unreadable {type : StoreType} {cause : FileError}
      (type_eq : StoreType.parse? config.type = some type)
      (unreadable : files config.path = .error cause) (present : cause ≠ .notFound) :
      Unavailable role files config (.unreadable role config.path cause)
  | malformed {type : StoreType} {content : Bytes} {cause : FormatError}
      (type_eq : StoreType.parse? config.type = some type) (file : files config.path = .ok content)
      (malformed : Malformed config.password content type cause) :
      Unavailable role files config (.badFormat role config.path type cause)

theorem typeOf_eq_ok_iff {word : String} :
    typeOf role word = .ok type ↔ StoreType.parse? word = some type := by
  unfold typeOf
  cases StoreType.parse? word <;> simp

theorem typeOf_eq_error_iff {word : String} {e : StoreError} : typeOf role word = .error e ↔
    StoreType.parse? word = none ∧ e = .unsupportedType role word := by
  unfold typeOf
  cases StoreType.parse? word <;> simp [eq_comm]

theorem readFile_eq_ok_iff {path : String} :
    readFile role files path = .ok content ↔ files path = .ok content := by
  unfold readFile
  split <;> simp_all

theorem readFile_eq_error_iff {path : String} {e : StoreError} :
    readFile role files path = .error e ↔
      (files path = .error .notFound ∧ e = .notFound role path) ∨
        ∃ cause, cause ≠ .notFound ∧ files path = .error cause ∧
          e = .unreadable role path cause := by
  unfold readFile
  split <;> simp_all [eq_comm]

/-- **A store is loaded exactly if it is available.** -/
theorem load_eq_ok_iff : load role files config = .ok store ↔ Available files config store := by
  simp only [load, bind_eq_ok_iff, typeOf_eq_ok_iff, readFile_eq_ok_iff, mapError_eq_ok_iff,
    read_eq_ok_iff]
  exact ⟨fun ⟨type, htype, content, hfile, hwritten⟩ => ⟨type, content, htype, hfile, hwritten⟩,
    fun ⟨type, content, htype, hfile, hwritten⟩ => ⟨type, htype, content, hfile, hwritten⟩⟩

/-- **Loading fails with the first thing that is wrong.** -/
theorem load_eq_error_iff {e : StoreError} :
    load role files config = .error e ↔ Unavailable role files config e := by
  simp only [load, bind_eq_error_iff, typeOf_eq_ok_iff, typeOf_eq_error_iff, readFile_eq_ok_iff,
    readFile_eq_error_iff, mapError_eq_error_iff, read_eq_error_iff]
  constructor
  · rintro (⟨hnone, rfl⟩ | ⟨type, htype, (⟨habsent, rfl⟩ | ⟨cause, hcause, hfile, rfl⟩) |
      ⟨content, hfile, cause, hmalformed, rfl⟩⟩)
    · exact .type hnone
    · exact .absent htype habsent
    · exact .unreadable htype hfile hcause
    · exact .malformed htype hfile hmalformed
  · intro h
    cases h with
    | type hnone => exact .inl ⟨hnone, rfl⟩
    | @absent type htype habsent => exact .inr ⟨type, htype, .inl (.inl ⟨habsent, rfl⟩)⟩
    | @unreadable type cause htype hfile hcause =>
      exact .inr ⟨type, htype, .inl (.inr ⟨cause, hcause, hfile, rfl⟩)⟩
    | @malformed type content cause htype hfile hmalformed =>
      exact .inr ⟨type, htype, .inr ⟨content, hfile, cause, hmalformed, rfl⟩⟩

end CredentialStore

/-! ## 2. Keys -/

/-- A stored key is readable under a password, and is this key. -/
def StoredKey.Is (k : StoredKey) (password : Option Secret) (key : SigningKey) : Prop :=
  ∃ form octets, k.recover password = .ok (form, octets) ∧
    SigningKey.read? form octets.octets = some key

/-- A stored key cannot be recovered, or is not supported. -/
inductive StoredKey.Lost (k : StoredKey) (password : Option Secret) : KeyError → Prop where
  | unrecovered {e : KeyError} (unrecovered : k.recover password = .error e) : Lost k password e
  | rejected {form : KeyForm} {octets : Secret}
      (recovered : k.recover password = .ok (form, octets))
      (rejected : SigningKey.read? form octets.octets = none) : Lost k password .notAKey

namespace StoredKey

variable {k : StoredKey} {password : Option Secret}

theorem signingKey_eq_ok_iff {key : SigningKey} :
    k.signingKey password = .ok key ↔ k.Is password key := by
  unfold signingKey Is
  cases k.recover password with
  | error e => simp [bind, Except.bind]
  | ok recovered =>
    obtain ⟨form, octets⟩ := recovered
    simp only [bind, Except.bind, Except.ok.injEq, Prod.mk.injEq]
    cases hread : SigningKey.read? form octets.octets <;> simp [pure, Except.pure, hread]

theorem signingKey_eq_error_iff {e : KeyError} :
    k.signingKey password = .error e ↔ k.Lost password e := by
  unfold signingKey
  constructor
  · intro h
    obtain h | ⟨⟨form, octets⟩, hrecover, h⟩ := bind_eq_error_iff.mp h
    · exact .unrecovered h
    · cases hread : SigningKey.read? form octets.octets with
      | none =>
        simp only [hread] at h
        cases h
        exact .rejected hrecover hread
      | some key =>
        simp only [hread] at h
        cases h
  · intro h
    cases h with
    | unrecovered h => rw [h]; rfl
    | rejected hrecover hread => simp only [hrecover, bind, Except.bind, hread]; rfl

end StoredKey

namespace Identity

variable {password : Option Secret} {label : String} {chain : List Certificate} {k : StoredKey}
  {key : SigningKey} {leaf : Certificate}

/-- The leaf of a chain, if there is one, holds the public half of a key. -/
def Consistent (key : SigningKey) (chain : List Certificate) : Prop :=
  ∀ leaf, chain.head? = some leaf →
    ∃ c, Pkix.Certificate.ofDer leaf.der = .ok c ∧ c.writtenKey = key.publicKey

/-- A stored key with its chain is an identity: the key is recovered, and consistent with the
leaf. -/
structure Usable (password : Option Secret) (label : String) (chain : List Certificate)
    (k : StoredKey) (i : Identity) : Prop where
  label_eq : i.label = label
  chain_eq : i.chain = chain
  key : k.Is password i.key
  leaf : Consistent i.key chain

/-- The first thing that is wrong with a stored key and its chain. -/
inductive Unusable (password : Option Secret) (chain : List Certificate) (k : StoredKey) :
    KeyError → Prop where
  | key {e : KeyError} (lost : k.Lost password e) : Unusable password chain k e
  | unreadableLeaf {key : SigningKey} {leaf : Certificate} {e : Pkix.Error}
      (key_is : k.Is password key) (first : chain.head? = some leaf)
      (unreadable : Pkix.Certificate.ofDer leaf.der = .error e) :
      Unusable password chain k (.unreadableLeaf e)
  | foreignLeaf {key : SigningKey} {leaf : Certificate} {c : Pkix.Certificate}
      (key_is : k.Is password key) (first : chain.head? = some leaf)
      (read : Pkix.Certificate.ofDer leaf.der = .ok c) (foreign : c.writtenKey ≠ key.publicKey) :
      Unusable password chain k .foreignLeaf

theorem checkLeaf_eq_ok_iff : checkLeaf key leaf = .ok () ↔
    ∃ c, Pkix.Certificate.ofDer leaf.der = .ok c ∧ c.writtenKey = key.publicKey := by
  unfold checkLeaf
  cases Pkix.Certificate.ofDer leaf.der with
  | error e => simp
  | ok c => by_cases hkey : c.writtenKey = key.publicKey <;> simp [hkey]

theorem checkLeaf_eq_error_iff {e : KeyError} : checkLeaf key leaf = .error e ↔
    (∃ cause, Pkix.Certificate.ofDer leaf.der = .error cause ∧ e = .unreadableLeaf cause) ∨
      ∃ c, Pkix.Certificate.ofDer leaf.der = .ok c ∧ c.writtenKey ≠ key.publicKey ∧
        e = .foreignLeaf := by
  unfold checkLeaf
  cases Pkix.Certificate.ofDer leaf.der with
  | error cause => simp [eq_comm]
  | ok c => by_cases hkey : c.writtenKey = key.publicKey <;> simp [hkey, @eq_comm _ e]

theorem forM_checkLeaf_eq_ok_iff :
    chain.head?.forM (checkLeaf key) = .ok () ↔ Consistent key chain := by
  unfold Consistent
  cases chain.head? with
  | none => simp [Option.forM, pure, Except.pure]
  | some leaf => simp [Option.forM, checkLeaf_eq_ok_iff]

/-- **A stored key with its chain is derived exactly if it is usable.** -/
theorem derive_eq_ok_iff {i : Identity} :
    derive password label chain k = .ok i ↔ Usable password label chain k i := by
  simp only [derive, bind_eq_ok_iff, StoredKey.signingKey_eq_ok_iff]
  constructor
  · rintro ⟨key, hkey, ⟨⟩, hleaf, h⟩
    cases h
    exact ⟨rfl, rfl, hkey, forM_checkLeaf_eq_ok_iff.mp hleaf⟩
  · intro h
    obtain ⟨rfl, rfl, hkey, hleaf⟩ := h
    exact ⟨i.key, hkey, (), forM_checkLeaf_eq_ok_iff.mpr hleaf, rfl⟩

/-- **It is refused for the first thing that is wrong.** -/
theorem derive_eq_error_iff {e : KeyError} :
    derive password label chain k = .error e ↔ Unusable password chain k e := by
  simp only [derive, bind_eq_error_iff, StoredKey.signingKey_eq_ok_iff,
    StoredKey.signingKey_eq_error_iff]
  constructor
  · rintro (hlost | ⟨key, hkey, hleaf | ⟨_, _, h⟩⟩)
    · exact .key hlost
    · cases hfirst : chain.head? with
      | none => rw [hfirst] at hleaf; cases hleaf
      | some leaf =>
        rw [hfirst] at hleaf
        rcases checkLeaf_eq_error_iff.mp hleaf with ⟨cause, hread, rfl⟩ | ⟨c, hread, hforeign, rfl⟩
        · exact .unreadableLeaf hkey hfirst hread
        · exact .foreignLeaf hkey hfirst hread hforeign
    · cases h
  · intro h
    cases h with
    | key hlost => exact .inl hlost
    | @unreadableLeaf key leaf cause hkey hfirst hread =>
      refine .inr ⟨key, hkey, .inl ?_⟩
      rw [hfirst]
      exact checkLeaf_eq_error_iff.mpr (.inl ⟨cause, hread, rfl⟩)
    | @foreignLeaf key leaf c hkey hfirst hread hforeign =>
      refine .inr ⟨key, hkey, .inl ?_⟩
      rw [hfirst]
      exact checkLeaf_eq_error_iff.mpr (.inr ⟨c, hread, hforeign, rfl⟩)

end Identity

namespace KeyManagers

variable {password : Option Secret} {store : CredentialStore}

/-- A private key entry of a store, under its password, is an identity. -/
def EntryUsable (password : Option Secret) (entry : String × List Certificate × StoredKey)
    (i : Identity) : Prop :=
  Identity.Usable password entry.1 entry.2.1 entry.2.2 i

/-- The first thing that is wrong with the private keys of a store. -/
inductive Refused (password : Option Secret) (store : CredentialStore) :
    KeyRecoveryError → Prop where
  | none (none : store.keyEntries = []) : Refused password store ⟨"*", .noKeys⟩
  | entry {before after : List (String × List Certificate × StoredKey)} {label : String}
      {chain : List Certificate} {k : StoredKey} {e : KeyError}
      (entries : store.keyEntries = before ++ (label, chain, k) :: after)
      (earlier : ∀ entry ∈ before, ∃ i, EntryUsable password entry i)
      (unusable : Identity.Unusable password chain k e) : Refused password store ⟨label, e⟩

theorem identities_eq_ok_iff {is : List Identity} : identities password store = .ok is ↔
    List.Forall₂ (EntryUsable password) store.keyEntries is := by
  rw [identities, mapM_eq_ok_iff_forall₂]
  simp only [mapError_eq_ok_iff, Identity.derive_eq_ok_iff]
  exact Iff.rfl

theorem identities_eq_error_iff {e : KeyRecoveryError} : identities password store = .error e ↔
    ∃ before label chain k after cause, store.keyEntries = before ++ (label, chain, k) :: after ∧
      (∀ entry ∈ before, ∃ i, EntryUsable password entry i) ∧
      Identity.Unusable password chain k cause ∧ e = ⟨label, cause⟩ := by
  rw [identities, mapM_eq_error_iff]
  simp only [mapError_eq_ok_iff, mapError_eq_error_iff, Identity.derive_eq_ok_iff,
    Identity.derive_eq_error_iff, EntryUsable]
  constructor
  · rintro ⟨before, ⟨label, chain, k⟩, after, hentries, hearlier, cause, hcause, rfl⟩
    exact ⟨before, label, chain, k, after, cause, hentries, hearlier, hcause, rfl⟩
  · rintro ⟨before, label, chain, k, after, cause, hentries, hearlier, hcause, rfl⟩
    exact ⟨before, (label, chain, k), after, hentries, hearlier, cause, hcause, rfl⟩

/-- **All keys of a store are taken, or none.** -/
theorem derive_eq_ok_iff {ms : KeyManagers} : derive password store = .ok ms ↔
    store.keyEntries ≠ [] ∧
      ∃ is, ms = [⟨is⟩] ∧ List.Forall₂ (EntryUsable password) store.keyEntries is := by
  simp only [derive, bind_eq_ok_iff, identities_eq_ok_iff]
  constructor
  · rintro ⟨is, his, h⟩
    cases is with
    | nil => cases h
    | cons i is =>
      cases h
      refine ⟨fun hnil => ?_, _, rfl, his⟩
      rw [hnil] at his
      cases his
  · rintro ⟨hne, is, rfl, his⟩
    refine ⟨is, his, ?_⟩
    cases is with
    | nil =>
      exact absurd (List.forall₂_nil_right_iff.mp his) hne
    | cons i is => rfl

theorem derive_eq_error_iff {e : KeyRecoveryError} :
    derive password store = .error e ↔ Refused password store e := by
  simp only [derive, bind_eq_error_iff, identities_eq_ok_iff, identities_eq_error_iff]
  constructor
  · rintro (⟨before, label, chain, k, after, cause, hentries, hearlier, hcause, rfl⟩ | ⟨is, his, h⟩)
    · exact .entry hentries hearlier hcause
    · cases is with
      | nil =>
        cases h
        exact .none (List.forall₂_nil_right_iff.mp his)
      | cons i is => cases h
  · intro h
    cases h with
    | none hnone => exact .inr ⟨[], by rw [hnone]; exact .nil, rfl⟩
    | @entry before after label chain k cause hentries hearlier hcause =>
      exact .inl ⟨before, label, chain, k, after, cause, hentries, hearlier, hcause, rfl⟩

end KeyManagers

/-! ## 3. CRLs and anchors -/

namespace LocalCrls

variable {files : Files} {paths : List String} {ders : List Bytes}

/-- A file is readable, and holds this CRL. -/
def FileHolds (files : Files) (path : String) (crl : Crl) : Prop :=
  ∃ content, files path = .ok content ∧ Crl.parse content = .ok crl

/-- The first thing that is wrong with the CRLs of some files and those of a store. -/
inductive Refused (files : Files) (paths : List String) (ders : List Bytes) : CrlError → Prop where
  | unreadable {before after : List String} {path : String} {cause : FileError}
      (paths_eq : paths = before ++ path :: after)
      (earlier : ∀ path ∈ before, ∃ crl, FileHolds files path crl)
      (unreadable : files path = .error cause) : Refused files paths ders (.unreadable path cause)
  | file {before after : List String} {path : String} {content : Bytes} {cause : CrlError}
      (paths_eq : paths = before ++ path :: after)
      (earlier : ∀ path ∈ before, ∃ crl, FileHolds files path crl)
      (read : files path = .ok content) (malformed : Crl.parse content = .error cause) :
      Refused files paths ders (.inFile path cause)
  | store {before after : List Bytes} {der : Bytes} {cause : CrlError}
      (allFiles : ∀ path ∈ paths, ∃ crl, FileHolds files path crl)
      (ders_eq : ders = before ++ der :: after)
      (earlier : ∀ der ∈ before, ∃ crl, Crl.parse der = .ok crl)
      (malformed : Crl.parse der = .error cause) : Refused files paths ders cause

theorem fileHolds_iff {path : String} {crl : Crl} :
    FileHolds files path crl ↔ loadFile files path = .ok crl := loadFile_eq_ok_iff.symm

theorem loadFile_eq_error_iff {path : String} {e : CrlError} : loadFile files path = .error e ↔
    (∃ cause, files path = .error cause ∧ e = .unreadable path cause) ∨
      ∃ content cause, files path = .ok content ∧ Crl.parse content = .error cause ∧
        e = .inFile path cause := by
  unfold loadFile
  cases files path with
  | error cause => simp [eq_comm]
  | ok content => cases hparse : Crl.parse content <;> simp [hparse, eq_comm]

/-- **All CRLs are taken, or none.** -/
theorem load_eq_ok_iff_forall₂ {crls : LocalCrls} : load files paths ders = .ok crls ↔
    ∃ fromFiles fromStore, crls = fromFiles ++ fromStore ∧
      List.Forall₂ (FileHolds files) paths fromFiles ∧
      List.Forall₂ (fun der crl => Crl.parse der = .ok crl) ders fromStore := by
  simp only [load_eq_ok_iff, mapM_eq_ok_iff_forall₂, ← fileHolds_iff]
  constructor
  · rintro ⟨fromFiles, fromStore, hfiles, hstore, rfl⟩
    exact ⟨fromFiles, fromStore, rfl, hfiles, hstore⟩
  · rintro ⟨fromFiles, fromStore, rfl, hfiles, hstore⟩
    exact ⟨fromFiles, fromStore, hfiles, hstore, rfl⟩

theorem load_eq_error_iff {e : CrlError} :
    load files paths ders = .error e ↔ Refused files paths ders e := by
  simp only [load, bind_eq_error_iff, mapM_eq_error_iff, mapM_eq_ok_iff_forall₂, ← fileHolds_iff,
    loadFile_eq_error_iff]
  constructor
  · rintro (⟨before, path, after, hpaths, hearlier, ⟨cause, hfile, rfl⟩ |
      ⟨content, cause, hfile, hparse, rfl⟩⟩ | ⟨fromFiles, hfiles, ⟨before, der, after, hders,
      hearlier, hparse⟩ | ⟨_, _, h⟩⟩)
    · exact .unreadable hpaths hearlier hfile
    · exact .file hpaths hearlier hfile hparse
    · exact .store (exists_of_forall₂ hfiles) hders hearlier hparse
    · cases h
  · intro h
    cases h with
    | @unreadable before after path cause hpaths hearlier hfile =>
      exact .inl ⟨before, path, after, hpaths, hearlier, .inl ⟨cause, hfile, rfl⟩⟩
    | @file before after path content cause hpaths hearlier hfile hparse =>
      exact .inl ⟨before, path, after, hpaths, hearlier, .inr ⟨content, cause, hfile, hparse, rfl⟩⟩
    | @store before after der cause hall hders hearlier hparse =>
      obtain ⟨fromFiles, hfiles⟩ := exists_forall₂ hall
      exact .inr ⟨fromFiles, hfiles, .inl ⟨before, der, after, hders, hearlier, hparse⟩⟩

end LocalCrls

/-- There is a verifier below the anchors of a store if one of its certificates can be an anchor. -/
theorem TrustAnchor.ofStore_eq_nil_iff {store : CredentialStore} :
    TrustAnchor.ofStore store = [] ↔ ∀ c ∈ store.trusted, Pkix.Anchor.ofDer? c.der = none := by
  simp [ofStore, List.filterMap_eq_nil_iff, ofCertificate?]

theorem PeerVerifier.derive_eq_ok_iff {role : StoreRole} {store : CredentialStore}
    {v : PeerVerifier} : derive role store = .ok v ↔
      TrustAnchor.ofStore store ≠ [] ∧ v = ⟨TrustAnchor.ofStore store⟩ := by
  unfold derive
  cases TrustAnchor.ofStore store with
  | nil => simp
  | cons a as => simp [eq_comm]

end PeerTrust
