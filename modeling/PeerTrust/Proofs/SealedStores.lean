import PeerTrust.Key.Manager
import PeerTrust.Proofs.SealedContainers
import PeerTrust.Proofs.StoreBlocks

/-!
# Stores and keys in containers

A container changes who may read a store, or a key of it, and nothing that is read.

* `CredentialStore.LoadsAs` says what loading a file comes to, however it is declared to be stored;
  `CredentialStore.loadsAs_container`: a container loads as what is read of the file in it;
* `CredentialStore.ofBlocks_cons_or_error`: what a block gives comes before what the blocks behind
  it give, so that a change to one of these is not seen before it;
* `CredentialStore.KeySealed` are two stores of which the second has a key of the first in a
  container; `CredentialStore.ofBlocks_readAlike`: this is all that becomes of blocks in which the
  key is put into one, and `CredentialStore.KeySealed.derive_eq`: under the password, the
  identities are the same;
* `CredentialStore.sealing_keeps_meaning` puts these together.
-/

namespace PeerTrust

namespace Sealed

variable {rounds : Nat} {salt nonce content s : Bytes} {w : Secret}

/-- Containers are made with these: enough rounds for a key, a salt and a nonce. -/
structure Usable (rounds : Nat) (salt nonce : Bytes) : Prop where
  strong : 10000 ≤ rounds
  /-- The number of rounds is written in four octets. -/
  bounded : rounds < 2 ^ 32
  salt : salt.length = 32
  nonce : nonce.length = 12

theorem Usable.exists_wrap (h : Usable rounds salt nonce) (content : Bytes) (w : Secret) :
    ∃ s, wrap content w rounds salt nonce = .ok s ∧ IsContainer s w content :=
  ⟨_, wrap_eq_ok h.strong, isContainer_iff.mpr
    ⟨⟨rounds, salt, nonce, _⟩, fits_of_encrypt h.strong h.bounded h.salt h.nonce, rfl, rfl⟩⟩

/-- Without a password, a container stays closed. -/
theorem IsContainer.unwrap_none (h : IsContainer s w content) :
    unwrap s none = .error .passwordRequired := by
  obtain ⟨p, hfits, hs, -⟩ := isContainer_iff.mp h
  exact Sealed.unwrap_none (parts_eq_ok_iff.mpr ⟨hfits, hs⟩)

theorem wrapKey_eq_ok (h : wrap content w rounds salt nonce = .ok s) :
    wrapKey content w rounds salt nonce = .ok (⟨keyTag, s⟩ : Pem.Block).encode := by
  rw [wrapKey, h]
  rfl

end Sealed

namespace CredentialStore

variable {before after blocks : List Pem.Block} {type : StoreType} {password : Option Secret}
  {w : Secret} {key content file s : Bytes} {plain sealed : CredentialStore}
  {outcome : Except FormatError CredentialStore}

/-! ## 1. What is loaded -/

/-- A file is declared as a store of a type, with a password or without one. -/
structure Declared (files : Files) (config : StoreConfig) (type : StoreType)
    (password : Option Secret) (file : Bytes) : Prop where
  file : files config.path = .ok file
  type : StoreType.parse? config.type = some type
  password : config.password = password

/-- Wherever a file is declared as a store of this type and with this password, loading it has this
outcome. -/
def LoadsAs (type : StoreType) (password : Option Secret) (file : Bytes)
    (outcome : Except FormatError CredentialStore) : Prop :=
  ∀ role files config, Declared files config type password file →
    load role files config = outcome.mapError (.badFormat role config.path type)

/-- **What is loaded is what the declared type reads of the file.** -/
theorem loadsAs_of_read (h : read type password file = outcome) :
    LoadsAs type password file outcome := by
  intro role files config hdeclared
  simp only [load, typeOf, readFile, hdeclared.type, hdeclared.file, hdeclared.password, bind,
    Except.bind, h]

theorem loadsAs_plain (content : Bytes) : LoadsAs .pem none content (parse content) := by
  refine loadsAs_of_read ?_
  cases hparse : parse content <;> simp [read, hparse, bind, Except.bind, pure, Except.pure]

/-- A container loads as what is read of the file in it. -/
theorem loadsAs_container (h : Sealed.IsContainer s w content) :
    LoadsAs .sealed (some w) s (parse content) := by
  refine loadsAs_of_read ?_
  simp only [read, Sealed.unwrap_eq_ok_iff.mpr h]

/-! ## 2. Files of blocks -/

/-- A file reads as blocks, and is no container. -/
structure ReadsAs (content : Bytes) (blocks : List Pem.Block) : Prop where
  plain : Sealed.isSealed content = false
  read : Pem.read content = .ok blocks

theorem ReadsAs.parse_eq (h : ReadsAs content blocks) (hblocks : blocks ≠ []) :
    parse content = ofBlocks 0 0 [] blocks :=
  parse_eq_ofBlocks h.plain h.read hblocks

/-- A block can be written: it has a tag, and no dash in it. -/
def Writable (block : Pem.Block) : Prop := block.tag ≠ "" ∧ 45 ∉ Bytes.ofText block.tag

/-- Written blocks read as what they are. -/
theorem readsAs_octets (hne : blocks ≠ []) (hblocks : ∀ block ∈ blocks, Writable block) :
    ReadsAs (blocks.flatMap Pem.Block.octets) blocks := by
  refine ⟨?_, Pem.read_octets hblocks⟩
  obtain ⟨block, rest, rfl⟩ := List.exists_cons_of_ne_nil hne
  obtain ⟨octets, hoctets⟩ := Pem.octets_eq_cons block
  rw [List.flatMap_cons, hoctets]
  rfl

/-- **A block is refused whatever stands behind it, or what it gives comes before what the blocks
behind it give.** -/
theorem ofBlocks_cons_or_error (index number : Nat) (pending : List Certificate)
    (block : Pem.Block) :
    (∃ e, ∀ rest, ofBlocks index number pending (block :: rest) = .error e) ∨
      ∃ (p : Progress) (number' : Nat), ∀ rest, ofBlocks index number pending (block :: rest) =
        (ofBlocks (index + 1) number' p.pending rest).map p.add := by
  by_cases hcertificate : block.tag = "CERTIFICATE"
  · cases hread : Certificate.ofDer block.contents with
    | error cause =>
      refine .inl ⟨.badCertificate index cause, fun rest => ?_⟩
      simp only [ofBlocks, hcertificate, if_true, hread]
    | ok c =>
      refine .inr ⟨⟨[], [], pending ++ [c]⟩, number, fun rest => ?_⟩
      rw [ofBlocks_cons_certificate hcertificate hread]
      cases ofBlocks (index + 1) number (pending ++ [c]) rest <;> rfl
  by_cases hcrl : block.tag = "X509 CRL"
  · refine .inr ⟨⟨[], [block.contents], pending⟩, number, fun rest => ?_⟩
    rw [ofBlocks_cons_crl hcrl]
    rfl
  cases hencoding : KeyEncoding.ofTag? block.tag with
  | none =>
    refine .inl ⟨.unexpectedBlock index block.tag, fun rest => ?_⟩
    simp only [ofBlocks, hcertificate, hcrl, if_false, hencoding]
  | some encoding =>
    cases pending with
    | nil =>
      refine .inl ⟨.keyWithoutChain index, fun rest => ?_⟩
      simp only [ofBlocks, hcertificate, hcrl, if_false, hencoding]
    | cons leaf chain =>
      refine .inr ⟨⟨[.privateKey (StoreEntry.labelOf leaf number) (leaf :: chain)
        ⟨encoding, ⟨block.contents⟩⟩], [], []⟩, number + 1, fun rest => ?_⟩
      rw [ofBlocks_cons_key (KeyEncoding.ofTag?_eq_some_iff.mp hencoding)]
      rfl

/-! ## 3. Keys in containers -/

/-- Two stores are the same, but that a key that stands plain in the first is in a container in the
second: the password gives it back, and nothing does without one. -/
structure KeySealed (key : Bytes) (w : Secret) (plain sealed : CredentialStore) : Prop where
  entries : ∃ early label chain data late,
    plain.entries = early ++ .privateKey label chain ⟨.pkcs8, ⟨key⟩⟩ :: late ∧
    sealed.entries = early ++ .privateKey label chain ⟨.sealed, data⟩ :: late ∧
    StoredKey.recover ⟨.sealed, data⟩ (some w) = .ok (.pkcs8, ⟨key⟩) ∧
    StoredKey.recover ⟨.sealed, data⟩ none = .error (.notOpened .passwordRequired)
  crls : sealed.crls = plain.crls

/-- Two files are refused for the same reason, or give stores that are the same but for a key that
is in a container. -/
inductive ReadAlike (key : Bytes) (w : Secret) :
    (plain sealed : Except FormatError CredentialStore) → Prop where
  | refused (reason : FormatError) : ReadAlike key w (.error reason) (.error reason)
  | read {plain sealed : CredentialStore} (stores : KeySealed key w plain sealed) :
      ReadAlike key w (.ok plain) (.ok sealed)

theorem KeySealed.add (h : KeySealed key w plain sealed) (p : Progress) :
    KeySealed key w (p.add plain) (p.add sealed) where
  entries := by
    obtain ⟨early, label, chain, data, late, hplain, hsealed, hrecover⟩ := h.entries
    refine ⟨p.entries ++ early, label, chain, data, late, ?_, ?_, hrecover⟩
    · rw [Progress.add, hplain, List.append_assoc]
    · rw [Progress.add, hsealed, List.append_assoc]
  crls := by rw [Progress.add, h.crls, Progress.add]

theorem ReadAlike.map_add {a b : Except FormatError CredentialStore} (h : ReadAlike key w a b)
    (p : Progress) : ReadAlike key w (a.map p.add) (b.map p.add) := by
  cases h with
  | refused reason => exact .refused reason
  | read stores => exact .read (stores.add p)

theorem KeySealed.any_isSealedKey (h : KeySealed key w plain sealed) :
    sealed.entries.any isSealedKey := by
  obtain ⟨early, label, chain, data, late, -, hentries, -, -⟩ := h.entries
  simp [hentries, isSealedKey]

/-- A file in which a key is in a container may be declared with a password. -/
theorem ReadAlike.loadsAs {a : Except FormatError CredentialStore}
    (h : ReadAlike key w a (parse content)) (password : Option Secret) :
    LoadsAs .pem password content (parse content) := by
  refine loadsAs_of_read ?_
  cases hparse : parse content with
  | error reason => simp [CredentialStore.read, hparse, bind, Except.bind]
  | ok store =>
    rw [hparse] at h
    cases h with
    | read stores =>
      simp [CredentialStore.read, hparse, stores.any_isSealedKey, bind, Except.bind, pure,
        Except.pure]

/-- A key in a container is given back under the password, and not without one. -/
theorem recover_container (h : Sealed.IsContainer s w key) :
    StoredKey.recover ⟨.sealed, ⟨s⟩⟩ (some w) = .ok (.pkcs8, ⟨key⟩) ∧
      StoredKey.recover ⟨.sealed, ⟨s⟩⟩ none = .error (.notOpened .passwordRequired) := by
  simp only [StoredKey.recover, Sealed.unwrap_eq_ok_iff.mpr h, h.unwrap_none, and_self]

/-- **Where a key is put into a container, nothing else changes.** -/
theorem ofBlocks_readAlike (h : Sealed.IsContainer s w key) (before after : List Pem.Block)
    (index number : Nat) (pending : List Certificate) :
    ReadAlike key w (ofBlocks index number pending (before ++ ⟨"PRIVATE KEY", key⟩ :: after))
      (ofBlocks index number pending (before ++ ⟨Sealed.keyTag, s⟩ :: after)) := by
  induction before generalizing index number pending with
  | nil =>
    rw [List.nil_append, List.nil_append]
    have hplain : (⟨"PRIVATE KEY", key⟩ : Pem.Block).tag = KeyEncoding.pkcs8.tag := rfl
    have hsealed : (⟨Sealed.keyTag, s⟩ : Pem.Block).tag = KeyEncoding.sealed.tag := rfl
    cases pending with
    | nil => exact .refused (.keyWithoutChain index)
    | cons leaf chain =>
      -- the blocks behind the key are the same, and so is what they give
      rw [ofBlocks_cons_key hplain, ofBlocks_cons_key hsealed]
      cases ofBlocks (index + 1) (number + 1) [] after with
      | error reason => exact .refused reason
      | ok store => exact .read ⟨⟨[], _, _, _, _, rfl, rfl, recover_container h⟩, rfl⟩
  | cons block before ih =>
    rw [List.cons_append, List.cons_append]
    rcases ofBlocks_cons_or_error index number pending block with ⟨e, herror⟩ | ⟨p, number', hstep⟩
    · rw [herror, herror]
      exact .refused e
    · rw [hstep, hstep]
      exact (ih (index + 1) number' p.pending).map_add p

/-- **Under the password, a store with a key in a container gives the same identities.** -/
theorem KeySealed.derive_eq (h : KeySealed key w plain sealed) :
    KeyManagers.derive (some w) sealed = KeyManagers.derive (some w) plain := by
  obtain ⟨early, label, chain, data, late, hplain, hsealed, hrecover, -⟩ := h.entries
  have hkey : StoredKey.signingKey ⟨.sealed, data⟩ (some w) =
      StoredKey.signingKey ⟨.pkcs8, ⟨key⟩⟩ (some w) := by
    simp only [StoredKey.signingKey, hrecover]
    rfl
  have hidentity : Identity.derive (some w) label chain ⟨.sealed, data⟩ =
      Identity.derive (some w) label chain ⟨.pkcs8, ⟨key⟩⟩ := by
    simp only [Identity.derive, hkey]
  have hall : KeyManagers.identities (some w) sealed = KeyManagers.identities (some w) plain := by
    simp only [KeyManagers.identities, keyEntries, hplain, hsealed, List.filterMap_append,
      List.filterMap_cons, List.mapM_append, List.mapM_cons, hidentity]
  simp only [KeyManagers.derive, hall]

/-! ## 4. What sealing keeps -/

/-- **A container changes nothing that is read.** A store in a container loads as the file in it is
read; a store with a key in a container loads as the same store with the key plain, but for that
key, which the password alone gives back, also where that store is in a container itself. -/
theorem sealing_keeps_meaning :
    (∀ content w rounds salt nonce, Sealed.Usable rounds salt nonce →
      ∃ s, Sealed.wrap content w rounds salt nonce = .ok s ∧
        LoadsAs .sealed (some w) s (parse content) ∧ LoadsAs .pem none content (parse content)) ∧
    ∀ before after key w rounds salt nonce, Sealed.Usable rounds salt nonce →
      ∃ pem s, Sealed.wrapKey key w rounds salt nonce = .ok pem ∧
        ((∀ block ∈ before ++ after, Writable block) →
          ReadsAs (before.flatMap Pem.Block.octets ++ Bytes.ofText pem ++
            after.flatMap Pem.Block.octets) (before ++ ⟨Sealed.keyTag, s⟩ :: after)) ∧
        ∀ content content',
          ReadsAs content (before ++ ⟨"PRIVATE KEY", key⟩ :: after) →
          ReadsAs content' (before ++ ⟨Sealed.keyTag, s⟩ :: after) →
          ReadAlike key w (parse content) (parse content') ∧
          (∀ password, LoadsAs .pem password content' (parse content')) ∧
          ∀ rounds' salt' nonce', Sealed.Usable rounds' salt' nonce' →
            ∃ s', Sealed.wrap content' w rounds' salt' nonce' = .ok s' ∧
              LoadsAs .sealed (some w) s' (parse content') := by
  constructor
  · intro content w rounds salt nonce husable
    obtain ⟨s, hwrap, hcontainer⟩ := husable.exists_wrap content w
    exact ⟨s, hwrap, loadsAs_container hcontainer, loadsAs_plain content⟩
  · intro before after key w rounds salt nonce husable
    obtain ⟨s, hwrap, hcontainer⟩ := husable.exists_wrap key w
    refine ⟨_, s, Sealed.wrapKey_eq_ok hwrap, fun hwritable => ?_, ?_⟩
    · have hall : ∀ block ∈ before ++ ⟨Sealed.keyTag, s⟩ :: after, Writable block := by
        intro block hblock
        rcases List.mem_append.mp hblock with hbefore | hcons
        · exact hwritable block (List.mem_append_left _ hbefore)
        rcases List.mem_cons.mp hcons with rfl | hafter
        · exact (by decide : Sealed.keyTag ≠ "" ∧ 45 ∉ Bytes.ofText Sealed.keyTag)
        · exact hwritable block (List.mem_append_right _ hafter)
      have hread := readsAs_octets (by simp) hall
      rwa [List.flatMap_append, List.flatMap_cons, ← List.append_assoc] at hread
    · intro content content' hplain hsealed
      have halike : ReadAlike key w (parse content) (parse content') := by
        rw [hplain.parse_eq (by simp), hsealed.parse_eq (by simp)]
        exact ofBlocks_readAlike hcontainer before after 0 0 []
      refine ⟨halike, halike.loadsAs, fun rounds' salt' nonce' husable' => ?_⟩
      obtain ⟨s', hwrap', hcontainer'⟩ := husable'.exists_wrap content' w
      exact ⟨s', hwrap', loadsAs_container hcontainer'⟩

end CredentialStore

/-! ## 5. A key in two containers -/

namespace StoreSample

/-- The leaf and its issuer with a key, a CRL, and a certificate that is trusted; the key is the
block that is given. -/
def blocksWith (key : Pem.Block) : List Pem.Block :=
  [leafBlock, midBlock] ++ key :: [crlBlock, renewedBlock]

theorem readsAs_blocksWith {key : Pem.Block} (h : CredentialStore.Writable key) :
    CredentialStore.ReadsAs ((blocksWith key).flatMap Pem.Block.octets) (blocksWith key) := by
  have hcertificate : "CERTIFICATE" ≠ "" ∧ 45 ∉ Bytes.ofText "CERTIFICATE" := by decide
  have hcrl : "X509 CRL" ≠ "" ∧ 45 ∉ Bytes.ofText "X509 CRL" := by decide
  refine CredentialStore.readsAs_octets (by simp [blocksWith]) fun block hblock => ?_
  simp only [blocksWith, List.cons_append, List.nil_append, List.mem_cons, List.not_mem_nil,
    or_false] at hblock
  rcases hblock with rfl | rfl | rfl | rfl | rfl
  · exact hcertificate
  · exact hcertificate
  · exact h
  · exact hcrl
  · exact hcertificate

theorem writable_key : CredentialStore.Writable ⟨"PRIVATE KEY", [1, 2, 3]⟩ :=
  (by decide : "PRIVATE KEY" ≠ "" ∧ 45 ∉ Bytes.ofText "PRIVATE KEY")

open PathSample CredentialStore

/-- What is made of these blocks. -/
def madeWith (encoding : KeyEncoding) (octets : Bytes) : Progress :=
  ⟨[.privateKey (StoreEntry.labelOf leaf 0) [leaf, mid] ⟨encoding, ⟨octets⟩⟩],
    [crlBlock.contents], [renewed]⟩

theorem sorts_blocksWith (encoding : KeyEncoding) (octets : Bytes) :
    Sorts (blocksWith ⟨encoding.tag, octets⟩) (madeWith encoding octets) := by
  have hleaf : Sorts [leafBlock] ⟨[], [], [leaf]⟩ := .pass .start (.certificate rfl ofDer_leaf)
  have hmid : Sorts [leafBlock, midBlock] ⟨[], [], [leaf, mid]⟩ :=
    .pass hleaf (.certificate rfl ofDer_mid)
  have hkey : Sorts [leafBlock, midBlock, ⟨encoding.tag, octets⟩]
      { madeWith encoding octets with crls := [], pending := [] } := .pass hmid (.key rfl rfl)
  have hcrl : Sorts [leafBlock, midBlock, ⟨encoding.tag, octets⟩, crlBlock]
      { madeWith encoding octets with pending := [] } := .pass hkey (.crl rfl)
  exact .pass hcrl (.certificate rfl ofDer_renewed)

theorem parse_blocksWith : ∃ store,
    parse ((blocksWith ⟨"PRIVATE KEY", [1, 2, 3]⟩).flatMap Pem.Block.octets) = .ok store :=
  ⟨_, ((readsAs_blocksWith writable_key).parse_eq (by simp [blocksWith])).trans
    (sorts_blocksWith .pkcs8 [1, 2, 3]).finishes⟩

end StoreSample

open StoreSample in
theorem CredentialStore.sealing_keeps_meaning_twice : ∃ files config plain store,
    parse ((blocksWith ⟨"PRIVATE KEY", [1, 2, 3]⟩).flatMap Pem.Block.octets) = .ok plain ∧
      config.type = "SEALED" ∧ load .identity files config = .ok store ∧
      KeySealed [1, 2, 3] ⟨[119]⟩ plain store := by
  have husable : Sealed.Usable 10000 (List.replicate 32 0) (List.replicate 12 0) :=
    ⟨by decide, by decide, List.length_replicate, List.length_replicate⟩
  obtain ⟨-, s, -, -, hloads⟩ := sealing_keeps_meaning.2 [leafBlock, midBlock]
    [crlBlock, renewedBlock] [1, 2, 3] ⟨[119]⟩ 10000 _ _ husable
  have hsealed : ReadsAs _ (blocksWith ⟨Sealed.keyTag, s⟩) :=
    readsAs_blocksWith (by decide : Sealed.keyTag ≠ "" ∧ 45 ∉ Bytes.ofText Sealed.keyTag)
  obtain ⟨halike, -, htwice⟩ := hloads _ _ (readsAs_blocksWith writable_key) hsealed
  obtain ⟨s', -, hload⟩ := htwice 10000 _ _ husable
  obtain ⟨plain, hparse⟩ := parse_blocksWith
  have hdeclared : Declared (fun _ => .ok s') ⟨"identity.pem", some ⟨[119]⟩, "SEALED"⟩ .sealed
      (some ⟨[119]⟩) s' := ⟨rfl, by decide, rfl⟩
  have hloaded := hload .identity _ _ hdeclared
  rw [hparse] at halike
  generalize parse _ = outcome at halike hloaded
  cases halike with
  | read stores => exact ⟨_, _, plain, _, hparse, rfl, hloaded, stores⟩

end PeerTrust
