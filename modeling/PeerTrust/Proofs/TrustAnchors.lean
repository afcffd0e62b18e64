import Mathlib.Data.List.DropRight
import PeerTrust.Context
import PeerTrust.Proofs.SealedStores

/-!
# Which certificates are anchors

* `CredentialStore.afterLastKey` are the blocks of a store that no key follows,
  `CredentialStore.anchorBlocks` the certificates among them that can be anchors;
* `CredentialStore.Anchored` says where the certificates of a store come from: those of chains stand
  before the last key, and the anchors are those of the anchor blocks, in order;
  `CredentialStore.MadeOf.anchored`: so it is in every store;
* `TrustAnchor.takeUp` collects certificates and roots in two lists, each after a check of its own;
  `TrustAnchor.takeUp_eq`: of the certificates of a store, these are the two forms of its anchors;
* `CredentialStore.anchors_of_store` puts these together: the path and the chain are over the same
  anchors, and there is no verifier exactly if there are none.
-/

namespace PeerTrust

namespace CredentialStore

variable {before after front last blocks : List Pem.Block} {block key : Pem.Block}
  {cs : List Certificate} {store : CredentialStore} {files : Files} {config : StoreConfig}
  {role : StoreRole} {content : Bytes}

/-! ## 1. Blocks that no key follows -/

/-- Whether a block is no key. -/
def isOther (block : Pem.Block) : Bool := (KeyEncoding.ofTag? block.tag).isNone

theorem isOther_iff : isOther block = true ↔ ¬ block.IsKey := by
  simp only [isOther, Option.isNone_iff_eq_none, Option.eq_none_iff_forall_ne_some, ne_eq,
    KeyEncoding.ofTag?_eq_some_iff, Pem.Block.IsKey, not_exists]

/-- The blocks after the last key, or all of them where there is none. -/
def afterLastKey (blocks : List Pem.Block) : List Pem.Block := blocks.rtakeWhile isOther

/-- Whether a block has a certificate that can be an anchor. -/
def isAnchor (block : Pem.Block) : Bool :=
  block.tag = "CERTIFICATE" ∧ (Pkix.Anchor.ofDer? block.contents).isSome

/-- The certificates after the last key that can be anchors. -/
def anchorBlocks (blocks : List Pem.Block) : List Pem.Block := (afterLastKey blocks).filter isAnchor

theorem afterLastKey_concat_key (hkey : key.IsKey) : afterLastKey (before ++ [key]) = [] :=
  List.rtakeWhile_concat_neg _ _ _ fun h => isOther_iff.mp h hkey

theorem afterLastKey_concat (hother : ¬ block.IsKey) :
    afterLastKey (before ++ [block]) = afterLastKey before ++ [block] :=
  List.rtakeWhile_concat_pos _ _ _ (isOther_iff.mpr hother)

theorem afterLastKey_of_none (h : ∀ block ∈ last, ¬ block.IsKey) : afterLastKey last = last :=
  List.rtakeWhile_eq_self_iff.mpr fun block hblock => isOther_iff.mpr (h block hblock)

/-- What stands before a key does not matter. -/
theorem afterLastKey_key (hkey : key.IsKey) (before after : List Pem.Block) :
    afterLastKey (before ++ key :: after) = afterLastKey after := by
  induction after using List.reverseRecOn with
  | nil => exact afterLastKey_concat_key hkey
  | append_singleton after last ih =>
    rw [← List.cons_append, ← List.append_assoc]
    by_cases hlast : last.IsKey
    · rw [afterLastKey_concat_key hlast, afterLastKey_concat_key hlast]
    · rw [afterLastKey_concat hlast, afterLastKey_concat hlast, ih]

/-- Where blocks are divided at the keys, the last part stands after the last key. -/
theorem Divided.afterLastKey_eq {parts : List (List Pem.Block × Pem.Block)}
    (h : Divided blocks parts last) : afterLastKey blocks = last := by
  rw [h.join]
  rcases List.eq_nil_or_concat' parts with rfl | ⟨parts, part, rfl⟩
  · exact afterLastKey_of_none h.last
  · have hkey : part.2.IsKey := (h.ended part (by simp)).1
    rw [List.flatMap_append, List.flatMap_singleton, List.append_assoc, List.append_assoc,
      List.singleton_append, ← List.append_assoc, afterLastKey_key hkey,
      afterLastKey_of_none h.last]

theorem anchorBlocks_key (hkey : key.IsKey) (before after : List Pem.Block) :
    anchorBlocks (before ++ key :: after) = anchorBlocks after := by
  rw [anchorBlocks, anchorBlocks, afterLastKey_key hkey]

/-- A certificate that can be no anchor is passed over. -/
theorem anchorBlocks_rejected (hother : ¬ block.IsKey)
    (hrejected : Pkix.Anchor.ofDer? block.contents = none) (before after : List Pem.Block) :
    anchorBlocks (before ++ block :: after) = anchorBlocks (before ++ after) := by
  have hfilter : [block].filter isAnchor = [] := by simp [isAnchor, hrejected]
  induction after using List.reverseRecOn with
  | nil =>
    rw [List.append_nil, anchorBlocks, afterLastKey_concat hother, List.filter_append, hfilter,
      List.append_nil, anchorBlocks]
  | append_singleton after last ih =>
    rw [← List.cons_append, ← List.append_assoc, ← List.append_assoc]
    by_cases hlast : last.IsKey
    · rw [anchorBlocks, anchorBlocks, afterLastKey_concat_key hlast, afterLastKey_concat_key hlast]
    · rw [anchorBlocks, anchorBlocks] at ih ⊢
      rw [afterLastKey_concat hlast, afterLastKey_concat hlast, List.filter_append,
        List.filter_append, ih]

/-! ## 2. Anchors -/

/-- A block has the certificate of an anchor, and what is trusted of it. -/
structure Stands (block : Pem.Block) (a : TrustAnchor) : Prop where
  holds : Holds block a.certificate
  accepted : Pkix.Anchor.ofDer? block.contents = some a.anchor

/-- Where the certificates of a store come from. -/
structure Anchored (blocks : List Pem.Block) (store : CredentialStore) : Prop where
  /-- The certificates of chains stand before the last key. -/
  chains : ∃ front, blocks = front ++ afterLastKey blocks ∧
    CertificatesOf front (store.keyEntries.flatMap fun (_, chain, _) => chain)
  /-- The ones after it are those that are trusted on their own. -/
  trusted : CertificatesOf (afterLastKey blocks) store.trusted
  /-- The anchors are the ones of these that can be, in order. -/
  anchors : List.Forall₂ Stands (anchorBlocks blocks) (TrustAnchor.ofStore store)

variable {parts : List (List Pem.Block × Pem.Block)} {keyed alone : List StoreEntry}

/-- Entries of keys hold the chains of the parts that the keys end, and nothing else. -/
theorem keyEntries_of_keyed (h : List.Forall₂ KeyEntryOf parts keyed) (crls : List Bytes) :
    CertificatesOf (parts.flatMap fun part => part.1 ++ [part.2])
      ((keyEntries ⟨keyed, crls⟩).flatMap fun (_, chain, _) => chain) ∧
    trusted ⟨keyed, crls⟩ = [] := by
  induction h with
  | nil => exact ⟨.nil, rfl⟩
  | cons hentry _ ih =>
    obtain ⟨label, chain, encoding, rfl, htag, hchain⟩ := hentry
    exact ⟨(hchain.concat_other (ne_certificate_of_isKey ⟨encoding, htag⟩)).append ih.1, ih.2⟩

/-- Entries that are trusted on their own hold no keys. -/
theorem trusted_of_alone (h : List.Forall₂ TrustedEntryOf blocks alone) (crls : List Bytes) :
    List.Forall₂ Holds blocks (trusted ⟨alone, crls⟩) ∧ keyEntries ⟨alone, crls⟩ = [] := by
  induction h with
  | nil => exact ⟨.nil, rfl⟩
  | cons hentry _ ih =>
    obtain ⟨label, c, rfl, hholds⟩ := hentry
    exact ⟨.cons hholds ih.1, ih.2⟩

/-- The anchors of certificates are those of the blocks that they come from. -/
theorem stands_of_holds (h : List.Forall₂ Holds blocks cs) :
    List.Forall₂ Stands (blocks.filter fun block => (Pkix.Anchor.ofDer? block.contents).isSome)
      (cs.filterMap TrustAnchor.ofCertificate?) := by
  induction h with
  | nil => exact .nil
  | @cons block c _ _ hholds _ ih =>
    have hanchor : TrustAnchor.ofCertificate? c =
        (Pkix.Anchor.ofDer? block.contents).map (⟨c, ·⟩) := by
      rw [TrustAnchor.ofCertificate?, hholds.octets]
    cases haccepted : Pkix.Anchor.ofDer? block.contents with
    | none => simpa [haccepted, hanchor] using ih
    | some a => simpa [haccepted, hanchor] using List.Forall₂.cons ⟨hholds, haccepted⟩ ih

theorem filter_isAnchor (blocks : List Pem.Block) : blocks.filter isAnchor =
    (blocks.filter (·.tag = "CERTIFICATE")).filter fun block =>
      (Pkix.Anchor.ofDer? block.contents).isSome := by
  rw [List.filter_filter]
  exact List.filter_congr fun block _ => by simp [isAnchor, Bool.and_comm]

/-- **Chains stand before the last key, and the anchors after it.** -/
theorem MadeOf.anchored (h : MadeOf blocks store) : Anchored blocks store := by
  obtain ⟨parts, last, keyed, alone, hdivided, hentries, hkeyed, halone⟩ := h.entries
  -- the entries of keys hold no anchors, and the others no chains
  obtain ⟨hchains, hnone⟩ := keyEntries_of_keyed hkeyed []
  obtain ⟨htrusted, hnokey⟩ := trusted_of_alone halone []
  have hlast : afterLastKey blocks = last := hdivided.afterLastKey_eq
  have hkeys : store.keyEntries = keyEntries ⟨keyed, []⟩ ++ keyEntries ⟨alone, []⟩ := by
    simp only [keyEntries, hentries, List.filterMap_append]
  have hcertificates : store.trusted = trusted ⟨keyed, []⟩ ++ trusted ⟨alone, []⟩ := by
    simp only [trusted, hentries, List.filterMap_append]
  rw [hnokey, List.append_nil] at hkeys
  rw [hnone, List.nil_append] at hcertificates
  constructor
  · exact ⟨_, by rw [hlast]; exact hdivided.join, by rw [hkeys]; exact hchains⟩
  · rw [CertificatesOf, hlast, hcertificates]
    exact htrusted
  · rw [anchorBlocks, hlast, filter_isAnchor, TrustAnchor.ofStore, hcertificates]
    exact stands_of_holds htrusted

/-! ## 3. Files -/

/-- The text of a store: its file, or what its password gives of the container that this is. -/
inductive TextOf (config : StoreConfig) (file : Bytes) : (content : Bytes) → Prop where
  | plain (type : StoreType.parse? config.type = some .pem) : TextOf config file file
  | opened {content : Secret} (type : StoreType.parse? config.type = some .sealed)
      (opened : Sealed.unwrap file config.password = .ok content) :
      TextOf config file content.octets

/-- A store that is loaded is parsed of its text. -/
theorem text_of_load (h : load role files config = .ok store) :
    ∃ file content, files config.path = .ok file ∧ TextOf config file content ∧
      parse content = .ok store := by
  obtain ⟨type, htype, h⟩ := bind_eq_ok_iff.mp h
  obtain ⟨file, hfile, h⟩ := bind_eq_ok_iff.mp h
  have hread : read type config.password file = .ok store := mapError_eq_ok_iff.mp h
  have hdeclared : StoreType.parse? config.type = some type := by
    unfold typeOf at htype
    split at htype
    · rename_i hparse
      cases htype
      exact hparse
    · cases htype
  have hat : files config.path = .ok file := by
    unfold readFile at hfile
    split at hfile
    · rename_i hat
      cases hfile
      exact hat
    · cases hfile
    · cases hfile
  refine ⟨file, ?_⟩
  cases type with
  | pem =>
    obtain ⟨parsed, hparse, h⟩ := bind_eq_ok_iff.mp hread
    refine ⟨file, hat, .plain hdeclared, ?_⟩
    split at h
    · cases h
    · cases h
      exact hparse
  | sealed =>
    simp only [read] at hread
    split at hread
    · cases hread
    · rename_i content hopened
      exact ⟨content.octets, hat, .opened hdeclared hopened, hread⟩

theorem madeOf_of_ofBlocks (h : ofBlocks 0 0 [] blocks = .ok store) : MadeOf blocks store := by
  rcases sorts_or_spoils blocks with ⟨p, hsorts⟩ | ⟨before, block, after, e, rfl, hsorts, hspoils⟩
  · cases hsorts.finishes.symm.trans h
    exact hsorts.made.finish
  · obtain ⟨p, hsorts⟩ := hsorts
    cases (hsorts.fails hspoils after).symm.trans h

/-- What is parsed is made of the blocks that are read. -/
theorem madeOf_of_parse (h : parse content = .ok store) :
    ∃ blocks, ReadsAs content blocks ∧ MadeOf blocks store := by
  unfold parse at h
  split at h
  · cases h
  · rename_i hplain
    split at h
    · cases h
    · cases h
    · rename_i blocks _ hread
      exact ⟨blocks, ⟨Bool.eq_false_iff.mpr hplain, hread⟩, madeOf_of_ofBlocks h⟩

end CredentialStore

/-! ## 4. Two lists of anchors -/

namespace TrustAnchor

/-- Takes up certificates one after the other, in a list of certificates and in one of roots. A
certificate is passed over if it cannot be read, or else if no root comes of it. -/
def takeUp (certificates : List Certificate) (roots : List Pkix.Anchor) :
    List Certificate → List Certificate × List Pkix.Anchor
  | [] => (certificates, roots)
  | c :: rest =>
    match Certificate.ofDer c.der with
    | .error _ => takeUp certificates roots rest
    | .ok info =>
      match Pkix.Anchor.ofDer? c.der with
      | none => takeUp certificates roots rest
      | some root => takeUp (certificates ++ [info]) (roots ++ [root]) rest

/-- **Of certificates that were read, both lists are of the same anchors.** -/
theorem takeUp_eq {cs : List Certificate} (h : ∀ c ∈ cs, Certificate.ofDer c.der = .ok c)
    (certificates : List Certificate) (roots : List Pkix.Anchor) :
    takeUp certificates roots cs =
      (certificates ++ (cs.filterMap ofCertificate?).map (·.certificate),
        roots ++ (cs.filterMap ofCertificate?).map (·.anchor)) := by
  induction cs generalizing certificates roots with
  | nil => simp [takeUp]
  | cons c rest ih =>
    obtain ⟨hread, hrest⟩ := List.forall_mem_cons.mp h
    simp only [takeUp, hread, List.filterMap_cons, ofCertificate?]
    cases Pkix.Anchor.ofDer? c.der with
    | none => exact ih hrest certificates roots
    | some root => simp [ih hrest]

end TrustAnchor

/-! ## 5. Verifiers of a store -/

/-- A verifier rebuilds paths over some certificates, and accepts chains and hints clients over some
roots. -/
structure PeerVerifier.Over (v : PeerVerifier) (certificates : List Certificate)
    (roots : List Pkix.Anchor) : Prop where
  path : ∀ endEntity intermediates,
    v.path endEntity intermediates = Path.build endEntity intermediates certificates
  client : ∀ endEntity intermediates now, v.acceptsChain .client endEntity intermediates now =
    Pkix.Chain.verify .clientAuth roots endEntity intermediates now
  server : ∀ name endEntity intermediates now,
    v.acceptsChain (.server name) endEntity intermediates now =
      Pkix.Chain.verifyServer name roots endEntity intermediates now
  hints : v.hints = roots.map fun root => Der.encode Der.tagSequence root.subject

theorem PeerVerifier.over (v : PeerVerifier) :
    v.Over (v.anchors.map (·.certificate)) (v.anchors.map (·.anchor)) where
  path _ _ := rfl
  client _ _ _ := rfl
  server _ _ _ _ := rfl
  hints := by simp only [hints, TrustAnchor.name, List.map_map, Function.comp_def]

namespace CredentialStore

variable {blocks : List Pem.Block} {store : CredentialStore} {role : StoreRole} {e : TrustError}
  {v : PeerVerifier}

theorem derive_eq_error_iff : PeerVerifier.derive role store = .error e ↔
    e = .noAnchor store.entries.length role ∧ TrustAnchor.ofStore store = [] := by
  unfold PeerVerifier.derive
  cases TrustAnchor.ofStore store with
  | nil => exact ⟨fun h => by cases h; exact ⟨rfl, rfl⟩, fun ⟨h, _⟩ => by rw [h]⟩
  | cons a as => exact iff_of_false nofun nofun

theorem anchors_of_derive (h : PeerVerifier.derive role store = .ok v) :
    v.anchors = TrustAnchor.ofStore store := by
  unfold PeerVerifier.derive at h
  split at h
  · cases h
  · cases h
    rfl

/-- What blocks hold is read again as it was. -/
theorem ofDer_of_holds {cs : List Certificate} (h : List.Forall₂ Holds blocks cs) :
    ∀ c ∈ cs, Certificate.ofDer c.der = .ok c := by
  induction h with
  | nil => exact List.forall_mem_nil _
  | cons hholds _ ih =>
    exact List.forall_mem_cons.mpr ⟨by rw [hholds.octets]; exact hholds.read, ih⟩

/-- **Which certificates are anchors.** Of a trust store that loads, whatever its revocation checks
are, paths and chains are over the same anchors in the same order: those of the certificates after
the last key that can be one. There is no verifier exactly if these are none; neither what stands
before a key nor a certificate that can be no anchor matters for them. -/
theorem anchors_of_store {files : Files} {config : StoreConfig}
    (hload : CredentialStore.load .trust files config = .ok store) :
    ∃ file content blocks certificates roots,
      files config.path = .ok file ∧ TextOf config file content ∧ ReadsAs content blocks ∧
      Anchored blocks store ∧
      List.Forall₂ Holds (anchorBlocks blocks) certificates ∧
      List.Forall₂ (fun block root => Pkix.Anchor.ofDer? block.contents = some root)
        (anchorBlocks blocks) roots ∧
      TrustAnchor.takeUp [] [] store.trusted = (certificates, roots) ∧
      (∀ e, PeerVerifier.derive .trust store = .error e ↔
        e = .noAnchor store.entries.length .trust ∧ anchorBlocks blocks = []) ∧
      (∀ v, PeerVerifier.derive .trust store = .ok v → v.Over certificates roots) ∧
      (∀ revocation checker, RevocationChecker.load revocation files store.crls = .ok checker →
        TrustContext.loadTrust files config revocation =
          (PeerVerifier.derive .trust store).map (·, checker)) ∧
      (∀ before key after, blocks = before ++ key :: after → key.IsKey →
        anchorBlocks blocks = anchorBlocks after) ∧
      ∀ before block after, blocks = before ++ block :: after → ¬ block.IsKey →
        Pkix.Anchor.ofDer? block.contents = none →
        anchorBlocks blocks = anchorBlocks (before ++ after) := by
  obtain ⟨file, content, hfile, htext, hparse⟩ := text_of_load hload
  obtain ⟨blocks, hreads, hmade⟩ := madeOf_of_parse hparse
  have hanchored : Anchored blocks store := hmade.anchored
  refine ⟨file, content, blocks, (TrustAnchor.ofStore store).map (·.certificate),
    (TrustAnchor.ofStore store).map (·.anchor), hfile, htext, hreads, hanchored, ?_, ?_, ?_, ?_, ?_,
    ?_, ?_, ?_⟩
  · exact List.forall₂_map_right_iff.mpr (hanchored.anchors.imp fun _ _ h => h.holds)
  · exact List.forall₂_map_right_iff.mpr (hanchored.anchors.imp fun _ _ h => h.accepted)
  · exact TrustAnchor.takeUp_eq (ofDer_of_holds hanchored.trusted) [] []
  · intro e
    have hempty : TrustAnchor.ofStore store = [] ↔ anchorBlocks blocks = [] := by
      rw [← List.length_eq_zero_iff, ← List.length_eq_zero_iff, hanchored.anchors.length_eq]
    rw [derive_eq_error_iff, hempty]
  · intro v hderive
    rw [← anchors_of_derive hderive]
    exact v.over
  · intro revocation checker hchecker
    simp only [TrustContext.loadTrust, hload, hchecker, mapError_ok, bind, Except.bind]
    cases PeerVerifier.derive .trust store <;> rfl
  · rintro before key after rfl hkey
    exact anchorBlocks_key hkey before after
  · rintro before block after rfl hother hrejected
    exact anchorBlocks_rejected hother hrejected before after

end CredentialStore

/-! ## 6. A trust store with an identity -/

namespace StoreSample

/-- Blocks with a key, of which only the certificate after it is trusted. -/
def mixedBlocks : List Pem.Block := blocksWith ⟨"PRIVATE KEY", [1, 2, 3]⟩

theorem anchorBlocks_mixed : CredentialStore.anchorBlocks mixedBlocks = [renewedBlock] := by
  have hcrl : CredentialStore.isAnchor crlBlock = false := by decide
  have hrenewed : CredentialStore.isAnchor renewedBlock = true := by decide +kernel
  have hother : ∀ block ∈ [crlBlock, renewedBlock], ¬ block.IsKey := by
    simp only [← CredentialStore.isOther_iff]
    decide
  rw [mixedBlocks, blocksWith, CredentialStore.anchorBlocks_key ⟨.pkcs8, rfl⟩,
    CredentialStore.anchorBlocks, CredentialStore.afterLastKey_of_none hother,
    List.filter_cons_of_neg (by simp [hcrl]), List.filter_cons_of_pos hrenewed, List.filter_nil]

end StoreSample

open StoreSample PathSample in
theorem CredentialStore.anchors_of_mixed_store : ∃ files config store root v,
    load .trust files config = .ok store ∧ PeerVerifier.derive .trust store = .ok v ∧
      v.Over [renewed] [root] := by
  have hreads : ReadsAs _ mixedBlocks := readsAs_blocksWith writable_key
  obtain ⟨store, hparse⟩ : ∃ store, parse (mixedBlocks.flatMap Pem.Block.octets) = .ok store :=
    parse_blocksWith
  have hdeclared : Declared (fun _ => .ok (mixedBlocks.flatMap Pem.Block.octets))
      ⟨"trust.pem", none, "PEM"⟩ .pem none _ := ⟨rfl, by decide, rfl⟩
  have hload := loadsAs_plain _ .trust _ _ hdeclared
  rw [hparse, mapError_ok] at hload
  obtain ⟨file, content, blocks, certificates, roots, hfile, htext, hread, -, hcertificates, hroots,
    -, herror, hover, -⟩ := anchors_of_store hload
  cases hfile
  obtain rfl : blocks = mixedBlocks := by
    cases htext with
    | plain => exact Except.ok.inj (hread.read.symm.trans hreads.read)
    | opened type => exact absurd type (by decide)
  rw [anchorBlocks_mixed] at hcertificates hroots herror
  cases hderive : PeerVerifier.derive .trust store with
  | error e => exact absurd ((herror e).mp hderive).2 (List.cons_ne_nil _ _)
  | ok v =>
    have hv := hover v hderive
    cases hcertificates with
    | cons hholds hnil =>
      cases hnil
      cases hroots with
      | cons _ hnil =>
        cases hnil
        cases hholds.read.symm.trans ofDer_renewed
        exact ⟨_, _, _, _, v, hload, hderive, hv⟩

end PeerTrust
