import Mathlib.Data.List.Forall2
import Mathlib.Data.List.Induction
import PeerTrust.Proofs.PathCompleteness
import PeerTrust.Proofs.PemBlocks
import PeerTrust.Store.Credential

/-!
# How blocks are sorted into a store

* `CredentialStore.WellFormed` says which blocks make a store, `CredentialStore.Spoils` why one may
  not stand after others;
* `CredentialStore.Divided` divides blocks at the keys among them, `CredentialStore.MadeOf` says
  what a store holds that is made of blocks;
* `CredentialStore.Sorts` goes from block to block: what has been sorted is what the blocks passed
  make (`CredentialStore.Sorts.made`), and `CredentialStore.ofBlocks` goes on with the blocks that
  are left (`CredentialStore.Sorts.goes_on`);
* `CredentialStore.sorts_or_spoils`: blocks are all sorted, or one spoils the store first;
* `CredentialStore.parse_classifies`: so a file gives the store that its blocks make, or names the
  first block that spoils it.
-/

namespace PeerTrust

/-! ## 1. Tags -/

/-- The tag of the blocks with keys of an encoding. -/
def KeyEncoding.tag : KeyEncoding → String
  | pkcs8 => "PRIVATE KEY"
  | pkcs1 => "RSA PRIVATE KEY"
  | sec1 => "EC PRIVATE KEY"
  | sealed => "SEALED PRIVATE KEY"
  | encryptedPkcs8 => "ENCRYPTED PRIVATE KEY"

theorem KeyEncoding.ofTag?_eq_some_iff {tag : String} {encoding : KeyEncoding} :
    ofTag? tag = some encoding ↔ tag = encoding.tag := by
  constructor
  · intro h
    unfold ofTag? at h
    split_ifs at h with hpkcs8 hpkcs1 hsec1 hsealed hencrypted
    · cases h
      exact hpkcs8
    · cases h
      exact hpkcs1
    · cases h
      exact hsec1
    · cases h
      exact hsealed
    · cases h
      exact hencrypted
  · rintro rfl
    cases encoding <;> rfl

/-- A block has one of the tags of keys. -/
def Pem.Block.IsKey (block : Pem.Block) : Prop := ∃ encoding : KeyEncoding, block.tag = encoding.tag

namespace CredentialStore

variable {block : Pem.Block} {before after blocks : List Pem.Block} {c : Certificate}
  {cs : List Certificate} {e : FormatError}

theorem ne_certificate_of_isKey (h : block.IsKey) : block.tag ≠ "CERTIFICATE" := by
  obtain ⟨encoding, htag⟩ := h
  rw [htag]
  cases encoding <;> decide

theorem ne_crl_of_isKey (h : block.IsKey) : block.tag ≠ "X509 CRL" := by
  obtain ⟨encoding, htag⟩ := h
  rw [htag]
  cases encoding <;> decide

theorem ne_certificate_of_crl (h : block.tag = "X509 CRL") : block.tag ≠ "CERTIFICATE" := by
  rw [h]
  decide

/-! ## 2. Which blocks make a store -/

/-- A certificate stands after the last key of blocks. -/
def HasChain (blocks : List Pem.Block) : Prop :=
  ∃ early certificate late, blocks = early ++ certificate :: late ∧
    certificate.tag = "CERTIFICATE" ∧ ∀ block ∈ late, ¬ block.IsKey

/-- Blocks make a store. -/
structure WellFormed (blocks : List Pem.Block) : Prop where
  tags : ∀ block ∈ blocks, block.tag = "CERTIFICATE" ∨ block.tag = "X509 CRL" ∨ block.IsKey
  certificates : ∀ block ∈ blocks, block.tag = "CERTIFICATE" →
    ∃ c, Certificate.ofDer block.contents = .ok c
  /-- Since the key before it, or the start, every key has a certificate. -/
  chains : ∀ before key after, blocks = before ++ key :: after → key.IsKey → HasChain before

/-- A block makes no store, after others that do. -/
inductive Spoils (before : List Pem.Block) (block : Pem.Block) : FormatError → Prop where
  | tag (certificate : block.tag ≠ "CERTIFICATE") (crl : block.tag ≠ "X509 CRL")
      (key : ¬ block.IsKey) : Spoils before block (.unexpectedBlock before.length block.tag)
  | certificate {cause : CertificateError} (tag : block.tag = "CERTIFICATE")
      (unread : Certificate.ofDer block.contents = .error cause) :
      Spoils before block (.badCertificate before.length cause)
  | chain (key : block.IsKey) (alone : ¬ HasChain before) :
      Spoils before block (.keyWithoutChain before.length)

/-- One of some blocks is the last of them or stands before it. -/
theorem concat_eq_append_cons {early late : List Pem.Block} {b : Pem.Block}
    (h : before ++ [block] = early ++ b :: late) : (before = early ∧ block = b ∧ late = []) ∨
      ∃ late', late = late' ++ [block] ∧ before = early ++ b :: late' := by
  rcases List.eq_nil_or_concat' late with rfl | ⟨late', last, rfl⟩
  · obtain ⟨hbefore, hblock⟩ := List.append_inj' h rfl
    exact .inl ⟨hbefore, List.singleton_inj.mp hblock, rfl⟩
  · rw [← List.cons_append, ← List.append_assoc] at h
    obtain ⟨hbefore, hblock⟩ := List.append_inj' h rfl
    exact .inr ⟨late', by rw [hblock], hbefore⟩

theorem hasChain_concat : HasChain (before ++ [block]) ↔
    block.tag = "CERTIFICATE" ∨ (¬ block.IsKey ∧ HasChain before) := by
  constructor
  · rintro ⟨early, certificate, late, heq, htag, hlate⟩
    rcases concat_eq_append_cons heq with ⟨-, rfl, -⟩ | ⟨late, rfl, rfl⟩
    · exact .inl htag
    · exact .inr ⟨hlate block (by simp), early, certificate, late, rfl, htag,
        fun b hb => hlate b (List.mem_append_left _ hb)⟩
  · rintro (htag | ⟨hkey, early, certificate, late, rfl, htag, hlate⟩)
    · exact ⟨before, block, [], rfl, htag, by simp⟩
    · refine ⟨early, certificate, late ++ [block], by simp, htag, fun b hb => ?_⟩
      rcases List.mem_append.mp hb with hb | hb
      · exact hlate b hb
      · exact List.mem_singleton.mp hb ▸ hkey

theorem WellFormed.nil : WellFormed [] :=
  ⟨by simp, by simp, fun before key after heq => by simp at heq⟩

/-- Blocks that make a store still do with one more that does not spoil it. -/
theorem WellFormed.concat (h : WellFormed before) (hblock : ∀ e, ¬ Spoils before block e) :
    WellFormed (before ++ [block]) := by
  constructor
  · intro b hb
    rcases List.mem_append.mp hb with hb | hb
    · exact h.tags b hb
    · obtain rfl := List.mem_singleton.mp hb
      by_contra hnone
      obtain ⟨hcertificate, hother⟩ := not_or.mp hnone
      obtain ⟨hcrl, hkey⟩ := not_or.mp hother
      exact hblock _ (.tag hcertificate hcrl hkey)
  · intro b hb htag
    rcases List.mem_append.mp hb with hb | hb
    · exact h.certificates b hb htag
    · obtain rfl := List.mem_singleton.mp hb
      cases hread : Certificate.ofDer b.contents with
      | ok c => exact ⟨c, rfl⟩
      | error cause => exact absurd (.certificate htag hread) (hblock _)
  · intro early key late heq hkey
    rcases concat_eq_append_cons heq with ⟨rfl, rfl, -⟩ | ⟨late, -, rfl⟩
    · by_contra halone
      exact hblock _ (.chain hkey halone)
    · exact h.chains early key late rfl hkey

/-- No block of a store spoils it. -/
theorem WellFormed.not_spoils (h : WellFormed (before ++ block :: after)) :
    ¬ Spoils before block e := by
  intro hspoils
  have hmem : block ∈ before ++ block :: after := by simp
  cases hspoils with
  | tag certificate crl key =>
    rcases h.tags block hmem with htag | htag | htag
    · exact certificate htag
    · exact crl htag
    · exact key htag
  | certificate tag unread =>
    obtain ⟨c, hread⟩ := h.certificates block hmem tag
    rw [unread] at hread
    cases hread
  | chain key alone => exact alone (h.chains before block after rfl key)

/-- The message of an error says which block it is about. -/
theorem Spoils.message_eq (h : Spoils before block e) :
    ∃ reason : String, e.message = s!"block {before.length}: " ++ reason := by
  cases h with
  | tag _ _ _ =>
    have hcolon : ": unexpected PEM block '" = ": " ++ "unexpected PEM block '" := rfl
    refine ⟨s!"unexpected PEM block '{block.tag}'", ?_⟩
    simp only [FormatError.message, toString, String.append_assoc]
    rw [hcolon, String.append_assoc]
  | @certificate cause _ _ =>
    have hcolon : ": Certificate parsing failed: " = ": " ++ "Certificate parsing failed: " := rfl
    refine ⟨s!"Certificate parsing failed: {cause.message}", ?_⟩
    simp only [FormatError.message, toString, String.append_assoc]
    rw [hcolon, String.append_assoc]
  | chain _ _ =>
    refine ⟨"private key without a certificate chain", ?_⟩
    simp only [FormatError.message, toString, String.append_assoc]
    rfl

/-! ## 3. What a store holds -/

/-- Blocks are divided at the keys among them: into parts, each with the key that ends it, and the
blocks after the last key. -/
structure Divided (blocks : List Pem.Block) (parts : List (List Pem.Block × Pem.Block))
    (last : List Pem.Block) : Prop where
  join : blocks = parts.flatMap (fun part => part.1 ++ [part.2]) ++ last
  ended : ∀ part ∈ parts, part.2.IsKey ∧ ∀ block ∈ part.1, ¬ block.IsKey
  last : ∀ block ∈ last, ¬ block.IsKey

/-- A block holds a certificate. -/
structure Holds (block : Pem.Block) (c : Certificate) : Prop where
  read : Certificate.ofDer block.contents = .ok c
  octets : c.der = block.contents

/-- The certificates that blocks hold, in order. -/
def CertificatesOf (blocks : List Pem.Block) (cs : List Certificate) : Prop :=
  List.Forall₂ Holds (blocks.filter (·.tag = "CERTIFICATE")) cs

/-- The octets of the CRLs that blocks hold, in order. -/
def crlsOf (blocks : List Pem.Block) : List Bytes :=
  (blocks.filter (·.tag = "X509 CRL")).map (·.contents)

/-- An entry has the key that ends a part, in the encoding that its tag says, and the certificates
of the part. -/
def KeyEntryOf (part : List Pem.Block × Pem.Block) (entry : StoreEntry) : Prop :=
  ∃ label chain encoding, entry = .privateKey label chain ⟨encoding, ⟨part.2.contents⟩⟩ ∧
    part.2.tag = encoding.tag ∧ CertificatesOf part.1 chain

/-- An entry has the certificate of a block. -/
def TrustedEntryOf (block : Pem.Block) (entry : StoreEntry) : Prop :=
  ∃ label c, entry = .trusted label c ∧ Holds block c

/-- The certificates of an entry. -/
def certificatesIn : StoreEntry → List Certificate
  | .privateKey _ chain _ => chain
  | .trusted _ c => [c]

/-- An entry has the common name of its first certificate, or else its number, as its name. -/
def NamedAt (number : Nat) (entry : StoreEntry) : Prop :=
  ∃ c rest, certificatesIn entry = c :: rest ∧
    entry.label = c.commonName.getD s!"entry-{number}"

/-- Entries are named so, numbered from the given one. -/
def NamedFrom (number : Nat) (entries : List StoreEntry) : Prop :=
  ∀ i entry, entries[i]? = some entry → NamedAt (number + i) entry

/-- A store is made of blocks. -/
structure MadeOf (blocks : List Pem.Block) (store : CredentialStore) : Prop where
  /-- First come the keys, each with the certificates since the key before it, then the certificates
  after the last key. -/
  entries : ∃ parts last keyed alone, Divided blocks parts last ∧ store.entries = keyed ++ alone ∧
    List.Forall₂ KeyEntryOf parts keyed ∧
    List.Forall₂ TrustedEntryOf (last.filter (·.tag = "CERTIFICATE")) alone
  names : NamedFrom 0 store.entries
  /-- No certificate is lost, taken twice or moved. -/
  certificates : CertificatesOf blocks (store.entries.flatMap certificatesIn)
  crls : store.crls = crlsOf blocks

theorem holds_of_ofDer (h : Certificate.ofDer block.contents = .ok c) : Holds block c := by
  refine ⟨h, ?_⟩
  unfold Certificate.ofDer at h
  split at h
  · cases h
  · cases h
    rfl

theorem CertificatesOf.append {cs' : List Certificate} (h : CertificatesOf before cs)
    (h' : CertificatesOf after cs') : CertificatesOf (before ++ after) (cs ++ cs') := by
  unfold CertificatesOf
  rw [List.filter_append]
  exact List.rel_append h h'

theorem CertificatesOf.concat (h : CertificatesOf before cs) (htag : block.tag = "CERTIFICATE")
    (hread : Certificate.ofDer block.contents = .ok c) :
    CertificatesOf (before ++ [block]) (cs ++ [c]) := by
  refine h.append ?_
  simp only [CertificatesOf, List.filter_cons, htag, decide_true, if_true, List.filter_nil]
  exact .cons (holds_of_ofDer hread) .nil

theorem CertificatesOf.concat_other (h : CertificatesOf before cs)
    (htag : block.tag ≠ "CERTIFICATE") : CertificatesOf (before ++ [block]) cs := by
  simpa [CertificatesOf, List.filter_append, htag] using h

/-- The entries of the certificates after the last key. -/
theorem trustedEntries_of (h : List.Forall₂ Holds blocks cs) (number : Nat) :
    List.Forall₂ TrustedEntryOf blocks (trustedEntries number cs) := by
  induction h generalizing number with
  | nil => exact .nil
  | cons hread _ ih => exact .cons ⟨_, _, rfl, hread⟩ (ih (number + 1))

theorem flatMap_trustedEntries (number : Nat) (cs : List Certificate) :
    (trustedEntries number cs).flatMap certificatesIn = cs := by
  induction cs generalizing number with
  | nil => rfl
  | cons c cs ih =>
    rw [trustedEntries, List.flatMap_cons, ih, certificatesIn, List.singleton_append]

theorem NamedFrom.append {number : Nat} {entries entries' : List StoreEntry}
    (h : NamedFrom number entries) (h' : NamedFrom (number + entries.length) entries') :
    NamedFrom number (entries ++ entries') := by
  intro i entry hentry
  rw [List.getElem?_append] at hentry
  split at hentry
  · exact h i entry hentry
  · have hi : number + i = number + entries.length + (i - entries.length) := by omega
    rw [hi]
    exact h' _ entry hentry

theorem namedFrom_single {number : Nat} {entry : StoreEntry} (h : NamedAt number entry) :
    NamedFrom number [entry] := by
  intro i entry' hentry
  obtain ⟨hi, rfl⟩ := List.getElem?_eq_some_iff.mp hentry
  obtain rfl : i = 0 := Nat.lt_one_iff.mp hi
  exact h

theorem namedFrom_trustedEntries (number : Nat) (cs : List Certificate) :
    NamedFrom number (trustedEntries number cs) := by
  induction cs generalizing number with
  | nil => exact fun i entry hentry => by simp [trustedEntries] at hentry
  | cons c cs ih => exact (namedFrom_single ⟨c, [], rfl, rfl⟩).append (ih (number + 1))

/-! ## 4. From block to block -/

/-- What has been sorted: entries of keys, CRLs, and the certificates since the last key. -/
structure Progress where
  entries : List StoreEntry
  crls : List Bytes
  pending : List Certificate

/-- What one more block leads to. -/
inductive Takes (p : Progress) (block : Pem.Block) : Progress → Prop where
  | certificate {c : Certificate} (tag : block.tag = "CERTIFICATE")
      (read : Certificate.ofDer block.contents = .ok c) :
      Takes p block { p with pending := p.pending ++ [c] }
  | crl (tag : block.tag = "X509 CRL") :
      Takes p block { p with crls := p.crls ++ [block.contents] }
  /-- A key ends the chain of certificates before it. -/
  | key {encoding : KeyEncoding} {leaf : Certificate} {chain : List Certificate}
      (tag : block.tag = encoding.tag) (pending : p.pending = leaf :: chain) :
      Takes p block { p with
        entries := p.entries ++ [.privateKey (StoreEntry.labelOf leaf p.entries.length)
          (leaf :: chain) ⟨encoding, ⟨block.contents⟩⟩]
        pending := [] }

/-- What blocks lead to, one after the other. -/
inductive Sorts : List Pem.Block → Progress → Prop where
  | start : Sorts [] ⟨[], [], []⟩
  | pass {before : List Pem.Block} {block : Pem.Block} {p p' : Progress} (passed : Sorts before p)
      (takes : Takes p block p') : Sorts (before ++ [block]) p'

variable {p p' : Progress}

/-- What has been sorted is what the blocks passed make. -/
structure Made (before : List Pem.Block) (p : Progress) : Prop where
  parts : ∃ parts last, Divided before parts last ∧ List.Forall₂ KeyEntryOf parts p.entries ∧
    CertificatesOf last p.pending
  names : NamedFrom 0 p.entries
  certificates : CertificatesOf before (p.entries.flatMap certificatesIn ++ p.pending)
  crls : p.crls = crlsOf before
  chain : p.pending = [] ↔ ¬ HasChain before

theorem Made.start : Made [] ⟨[], [], []⟩ where
  parts := ⟨[], [], ⟨rfl, by simp, by simp⟩, .nil, .nil⟩
  names i entry h := by simp at h
  certificates := .nil
  crls := rfl
  chain := iff_of_true rfl fun ⟨early, certificate, late, heq, _⟩ => by simp at heq

theorem Divided.concat {parts : List (List Pem.Block × Pem.Block)} {last : List Pem.Block}
    (h : Divided before parts last) (hkey : ¬ block.IsKey) :
    Divided (before ++ [block]) parts (last ++ [block]) where
  join := by rw [h.join, List.append_assoc]
  ended := h.ended
  last b hb := by
    rcases List.mem_append.mp hb with hb | hb
    · exact h.last b hb
    · exact List.mem_singleton.mp hb ▸ hkey

theorem Divided.concat_key {parts : List (List Pem.Block × Pem.Block)} {last : List Pem.Block}
    (h : Divided before parts last) (hkey : block.IsKey) :
    Divided (before ++ [block]) (parts ++ [(last, block)]) [] where
  join := by rw [h.join]; simp
  ended part hpart := by
    rcases List.mem_append.mp hpart with hpart | hpart
    · exact h.ended part hpart
    · obtain rfl := List.mem_singleton.mp hpart
      exact ⟨hkey, h.last⟩
  last := by simp

/-- **One more block is sorted as it should be.** -/
theorem Made.step (h : Made before p) (htakes : Takes p block p') :
    Made (before ++ [block]) p' := by
  obtain ⟨parts, last, hdivided, hkeyed, hlast⟩ := h.parts
  cases htakes with
  | @certificate c htag hread =>
    have hkey : ¬ block.IsKey := fun hkey => ne_certificate_of_isKey hkey htag
    constructor
    · exact ⟨parts, last ++ [block], hdivided.concat hkey, hkeyed, hlast.concat htag hread⟩
    · exact h.names
    · rw [← List.append_assoc]
      exact h.certificates.concat htag hread
    · simp [h.crls, crlsOf, List.filter_append, htag]
    · simp [hasChain_concat, htag]
  | crl htag =>
    have hkey : ¬ block.IsKey := fun hkey => ne_crl_of_isKey hkey htag
    have hother : block.tag ≠ "CERTIFICATE" := ne_certificate_of_crl htag
    constructor
    · exact ⟨parts, last ++ [block], hdivided.concat hkey, hkeyed, hlast.concat_other hother⟩
    · exact h.names
    · exact h.certificates.concat_other hother
    · simp [h.crls, crlsOf, List.filter_append, htag]
    · simp [h.chain, hasChain_concat, hother, hkey]
  | @key encoding leaf chain htag hpending =>
    have hkey : block.IsKey := ⟨encoding, htag⟩
    have hother : block.tag ≠ "CERTIFICATE" := ne_certificate_of_isKey hkey
    have hcrl : block.tag ≠ "X509 CRL" := ne_crl_of_isKey hkey
    rw [hpending] at hlast
    constructor
    · refine ⟨parts ++ [(last, block)], [], hdivided.concat_key hkey, ?_, .nil⟩
      exact List.rel_append hkeyed (.cons ⟨_, _, _, rfl, htag, hlast⟩ .nil)
    · refine h.names.append (namedFrom_single ⟨leaf, chain, rfl, ?_⟩)
      rw [Nat.zero_add]
      rfl
    · have hall := h.certificates.concat_other hother
      rw [hpending] at hall
      simpa [certificatesIn] using hall
    · simp [h.crls, crlsOf, List.filter_append, hcrl]
    · simp [hasChain_concat, hother, hkey]

/-- **What has been sorted is what the blocks passed make.** -/
theorem Sorts.made (h : Sorts before p) : Made before p := by
  induction h with
  | start => exact .start
  | pass _ takes ih => exact ih.step takes

/-- A block is sorted, or it spoils the store. -/
theorem Made.takes_or_spoils (h : Made before p) (block : Pem.Block) :
    (∃ p', Takes p block p') ∨ ∃ e, Spoils before block e := by
  by_cases hcertificate : block.tag = "CERTIFICATE"
  · cases hread : Certificate.ofDer block.contents with
    | ok c => exact .inl ⟨_, .certificate hcertificate hread⟩
    | error cause => exact .inr ⟨_, .certificate hcertificate hread⟩
  by_cases hcrl : block.tag = "X509 CRL"
  · exact .inl ⟨_, .crl hcrl⟩
  by_cases hkey : block.IsKey
  · cases hpending : p.pending with
    | nil => exact .inr ⟨_, .chain hkey (h.chain.mp hpending)⟩
    | cons leaf chain =>
      obtain ⟨encoding, htag⟩ := hkey
      exact .inl ⟨_, .key htag hpending⟩
  · exact .inr ⟨_, .tag hcertificate hcrl hkey⟩

/-- **Blocks are all sorted, or one spoils the store first.** -/
theorem sorts_or_spoils (blocks : List Pem.Block) : (∃ p, Sorts blocks p) ∨
    ∃ before block after e, blocks = before ++ block :: after ∧ (∃ p, Sorts before p) ∧
      Spoils before block e := by
  induction blocks using List.reverseRecOn with
  | nil => exact .inl ⟨_, .start⟩
  | append_singleton blocks block ih =>
    rcases ih with ⟨p, hsorts⟩ | ⟨before, first, after, e, rfl, hsorts, hspoils⟩
    · rcases hsorts.made.takes_or_spoils block with ⟨p', htakes⟩ | ⟨e, hspoils⟩
      · exact .inl ⟨p', .pass hsorts htakes⟩
      · exact .inr ⟨blocks, block, [], e, rfl, ⟨p, hsorts⟩, hspoils⟩
    · exact .inr ⟨before, first, after ++ [block], e, by simp, hsorts, hspoils⟩

/-! ## 5. The blocks that are left -/

section Steps

variable {index number : Nat} {rest : List Pem.Block} {certificates : List Certificate}

theorem ofBlocks_cons_certificate (htag : block.tag = "CERTIFICATE")
    (hread : Certificate.ofDer block.contents = .ok c) :
    ofBlocks index number certificates (block :: rest) =
      ofBlocks (index + 1) number (certificates ++ [c]) rest := by
  conv_lhs => unfold ofBlocks
  simp only [htag, if_true, hread]

theorem ofBlocks_cons_crl (htag : block.tag = "X509 CRL") :
    ofBlocks index number certificates (block :: rest) =
      (ofBlocks (index + 1) number certificates rest).map fun store =>
        { store with crls := block.contents :: store.crls } := by
  conv_lhs => unfold ofBlocks
  rw [if_neg (ne_certificate_of_crl htag), if_pos htag]
  cases ofBlocks (index + 1) number certificates rest <;> rfl

theorem ofBlocks_cons_key {encoding : KeyEncoding} {leaf : Certificate} {chain : List Certificate}
    (htag : block.tag = encoding.tag) :
    ofBlocks index number (leaf :: chain) (block :: rest) =
      (ofBlocks (index + 1) (number + 1) [] rest).map fun store =>
        { store with
          entries := .privateKey (StoreEntry.labelOf leaf number) (leaf :: chain)
            ⟨encoding, ⟨block.contents⟩⟩ :: store.entries } := by
  have hkey : block.IsKey := ⟨encoding, htag⟩
  conv_lhs => unfold ofBlocks
  rw [if_neg (ne_certificate_of_isKey hkey), if_neg (ne_crl_of_isKey hkey),
    KeyEncoding.ofTag?_eq_some_iff.mpr htag]
  cases ofBlocks (index + 1) (number + 1) [] rest <;> rfl

/-- A block that spoils a store ends the sorting. -/
theorem ofBlocks_cons_of_spoils (hspoils : Spoils before block e)
    (hpending : ¬ HasChain before → certificates = []) :
    ofBlocks before.length number certificates (block :: rest) = .error e := by
  unfold ofBlocks
  cases hspoils with
  | tag certificate crl key =>
    have hnone : KeyEncoding.ofTag? block.tag = none :=
      Option.eq_none_iff_forall_ne_some.mpr fun encoding hsome =>
        key ⟨encoding, KeyEncoding.ofTag?_eq_some_iff.mp hsome⟩
    rw [if_neg certificate, if_neg crl, hnone]
  | certificate tag unread => simp only [tag, if_true, unread]
  | chain key alone =>
    rw [if_neg (ne_certificate_of_isKey key), if_neg (ne_crl_of_isKey key)]
    obtain ⟨encoding, htag⟩ := key
    rw [KeyEncoding.ofTag?_eq_some_iff.mpr htag, hpending alone]

end Steps

/-- What has been sorted, together with what the blocks that are left make. -/
def Progress.add (p : Progress) (store : CredentialStore) : CredentialStore :=
  ⟨p.entries ++ store.entries, p.crls ++ store.crls⟩

/-- What has been sorted, where no blocks are left. -/
def Progress.finish (p : Progress) : CredentialStore :=
  p.add ⟨trustedEntries p.entries.length p.pending, []⟩

/-- With one more block, the sorting goes on from what it leads to. -/
theorem Takes.goes_on (h : Takes p block p') (index : Nat) (rest : List Pem.Block) :
    (ofBlocks index p.entries.length p.pending (block :: rest)).map p.add =
      (ofBlocks (index + 1) p'.entries.length p'.pending rest).map p'.add := by
  cases h with
  | certificate htag hread =>
    rw [ofBlocks_cons_certificate htag hread]
    rfl
  | crl htag =>
    rw [ofBlocks_cons_crl htag]
    cases ofBlocks (index + 1) p.entries.length p.pending rest with
    | error e => rfl
    | ok store => simp [Except.map, Progress.add]
  | key htag hpending =>
    rw [hpending, ofBlocks_cons_key htag, List.length_append, List.length_singleton]
    cases ofBlocks (index + 1) (p.entries.length + 1) [] rest with
    | error e => rfl
    | ok store => simp [Except.map, Progress.add]

/-- **The sorting goes on from what has been sorted.** -/
theorem Sorts.goes_on (h : Sorts before p) (rest : List Pem.Block) :
    ofBlocks 0 0 [] (before ++ rest) =
      (ofBlocks before.length p.entries.length p.pending rest).map p.add := by
  induction h generalizing rest with
  | start =>
    rw [List.nil_append, List.length_nil, List.length_nil]
    cases ofBlocks 0 0 [] rest <;> rfl
  | pass _ takes ih =>
    rw [List.append_assoc, List.singleton_append, ih, takes.goes_on, List.length_append,
      List.length_singleton]

theorem Sorts.finishes (h : Sorts blocks p) : ofBlocks 0 0 [] blocks = .ok p.finish := by
  have hall := h.goes_on []
  rw [List.append_nil] at hall
  exact hall

/-- The sorting ends with the first block that spoils the store. -/
theorem Sorts.fails (h : Sorts before p) (hspoils : Spoils before block e)
    (after : List Pem.Block) : ofBlocks 0 0 [] (before ++ block :: after) = .error e := by
  rw [h.goes_on, ofBlocks_cons_of_spoils hspoils h.made.chain.mpr]
  rfl

/-- **Blocks make a store if and only if they are sorted.** -/
theorem wellFormed_iff_sorts : WellFormed blocks ↔ ∃ p, Sorts blocks p := by
  constructor
  · intro h
    rcases sorts_or_spoils blocks with hsorts | ⟨before, block, after, e, rfl, -, hspoils⟩
    · exact hsorts
    · exact absurd hspoils h.not_spoils
  · rintro ⟨p, hsorts⟩
    induction hsorts with
    | start => exact .nil
    | pass passed takes ih =>
      -- a block that is sorted does not spoil the store: the sorting would fail with it, and does not
      refine ih.concat fun e hspoils => ?_
      have hfails := passed.fails hspoils []
      rw [(passed.pass takes).finishes] at hfails
      cases hfails

/-- What has been sorted of all blocks is the store that they make. -/
theorem Made.finish (h : Made blocks p) : MadeOf blocks p.finish := by
  obtain ⟨parts, last, hdivided, hkeyed, hlast⟩ := h.parts
  constructor
  · exact ⟨parts, last, _, _, hdivided, rfl, hkeyed, trustedEntries_of hlast _⟩
  · refine h.names.append ?_
    rw [Nat.zero_add]
    exact namedFrom_trustedEntries _ _
  · have hall : p.finish.entries.flatMap certificatesIn =
        p.entries.flatMap certificatesIn ++ p.pending := by
      simp only [Progress.finish, Progress.add, List.flatMap_append, flatMap_trustedEntries]
    rw [hall]
    exact h.certificates
  · simp [Progress.finish, Progress.add, h.crls]

/-! ## 6. Files -/

/-- An error is about the first block that spoils a store, and says which that is. -/
def FirstSpoils (blocks : List Pem.Block) (e : FormatError) : Prop :=
  ∃ before block after, blocks = before ++ block :: after ∧ WellFormed before ∧
    Spoils before block e ∧ ∃ reason : String, e.message = s!"block {before.length}: " ++ reason

theorem parse_eq_ofBlocks {content : Bytes} (hsealed : Sealed.isSealed content = false)
    (hread : Pem.read content = .ok blocks) (hblocks : blocks ≠ []) :
    parse content = ofBlocks 0 0 [] blocks := by
  simp only [parse, hsealed, hread]
  cases blocks with
  | nil => exact absurd rfl hblocks
  | cons block rest => rfl

/-- **A file of blocks is classified exactly.** It gives a store if and only if its blocks make
one; then the store is the one that they make. Otherwise the error is about the first block that
spoils it. -/
theorem parse_classifies {content : Bytes} {blocks : List Pem.Block}
    (hsealed : Sealed.isSealed content = false) (hread : Pem.read content = .ok blocks)
    (hblocks : blocks ≠ []) :
    ((∃ store, parse content = .ok store) ↔ WellFormed blocks) ∧
    (∀ store, parse content = .ok store → MadeOf blocks store) ∧
    ∀ e, parse content = .error e ↔ FirstSpoils blocks e := by
  rw [parse_eq_ofBlocks hsealed hread hblocks]
  have herror : ∀ e, FirstSpoils blocks e → ofBlocks 0 0 [] blocks = .error e := by
    rintro e ⟨before, block, after, rfl, hbefore, hspoils, -⟩
    obtain ⟨p, hsorts⟩ := wellFormed_iff_sorts.mp hbefore
    exact hsorts.fails hspoils after
  rcases sorts_or_spoils blocks with ⟨p, hsorts⟩ | ⟨before, block, after, e, rfl, hsorts, hspoils⟩
  · have hok : ofBlocks 0 0 [] blocks = .ok p.finish := hsorts.finishes
    refine ⟨iff_of_true ⟨_, hok⟩ (wellFormed_iff_sorts.mpr ⟨p, hsorts⟩), ?_, fun e => ?_⟩
    · intro store hstore
      cases hok.symm.trans hstore
      exact hsorts.made.finish
    · exact ⟨fun h => by simp [hok] at h, herror e⟩
  · have hfirst : FirstSpoils (before ++ block :: after) e :=
      ⟨before, block, after, rfl, wellFormed_iff_sorts.mpr hsorts, hspoils, hspoils.message_eq⟩
    have hfails := herror e hfirst
    refine ⟨iff_of_false ?_ fun h => h.not_spoils hspoils, ?_, fun e' => ⟨?_, herror e'⟩⟩
    · rintro ⟨store, hstore⟩
      cases hfails.symm.trans hstore
    · intro store hstore
      cases hfails.symm.trans hstore
    · intro h
      cases hfails.symm.trans h
      exact hfirst

end CredentialStore

/-! ## 7. A store of five blocks -/

namespace StoreSample

open PathSample

def leafBlock : Pem.Block := ⟨"CERTIFICATE", leaf.der⟩

def midBlock : Pem.Block := ⟨"CERTIFICATE", mid.der⟩

def keyBlock : Pem.Block := ⟨"EC PRIVATE KEY", [1, 2, 3]⟩

def crlBlock : Pem.Block := ⟨"X509 CRL", [4, 5]⟩

def renewedBlock : Pem.Block := ⟨"CERTIFICATE", renewed.der⟩

/-- A leaf with its issuer and a key, a CRL, and a certificate that is trusted. -/
def blocks : List Pem.Block := [leafBlock, midBlock, keyBlock, crlBlock, renewedBlock]

/-- The entry of the key. -/
def keyEntry : StoreEntry :=
  .privateKey (StoreEntry.labelOf leaf 0) [leaf, mid] ⟨.sec1, ⟨keyBlock.contents⟩⟩

open CredentialStore in
theorem wellFormed : WellFormed blocks := by
  have hleaf : Sorts [leafBlock] ⟨[], [], [leaf]⟩ := .pass .start (.certificate rfl ofDer_leaf)
  have hmid : Sorts [leafBlock, midBlock] ⟨[], [], [leaf, mid]⟩ :=
    .pass hleaf (.certificate rfl ofDer_mid)
  have hkey : Sorts [leafBlock, midBlock, keyBlock] ⟨[keyEntry], [], []⟩ :=
    .pass hmid (.key rfl rfl)
  have hcrl : Sorts [leafBlock, midBlock, keyBlock, crlBlock] ⟨[keyEntry], [crlBlock.contents], []⟩ :=
    .pass hkey (.crl rfl)
  exact wellFormed_iff_sorts.mpr ⟨_, .pass hcrl (.certificate rfl ofDer_renewed)⟩

end StoreSample

open StoreSample in
theorem CredentialStore.parse_classifies_five :
    ∃ store, parse (blocks.flatMap Pem.Block.octets) = .ok store ∧ MadeOf blocks store := by
  have hsealed : Sealed.isSealed (blocks.flatMap Pem.Block.octets) = false := by
    obtain ⟨rest, hrest⟩ := Pem.octets_eq_cons leafBlock
    rw [blocks, List.flatMap_cons, hrest]
    rfl
  have hread : Pem.read (blocks.flatMap Pem.Block.octets) = .ok blocks := by
    refine Pem.read_octets fun b hb => ?_
    have htags : ∀ tag ∈ ["CERTIFICATE", "EC PRIVATE KEY", "X509 CRL"],
        tag ≠ "" ∧ 45 ∉ Bytes.ofText tag := by decide
    refine htags b.tag ?_
    revert b
    simp [blocks, leafBlock, midBlock, keyBlock, crlBlock, renewedBlock]
  obtain ⟨hstore, hmade, -⟩ := parse_classifies hsealed hread (List.cons_ne_nil _ _)
  obtain ⟨store, hparse⟩ := hstore.mpr wellFormed
  exact ⟨store, hparse, hmade store hparse⟩

end PeerTrust
