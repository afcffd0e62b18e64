import PeerTrust.Context
import PeerTrust.Proofs.Loading
import PeerTrust.Proofs.PeerTraffic
import PeerTrust.Proofs.TrustAnchors

/-!
# Contexts, all or nothing

A context is made of an identity store, of its keys, of a trust store, of the CRLs at hand and of
anchors, in this order.

* `TrustContext.Accepted` is a configuration of which all this is right, `TrustContext.Complete` is
  what a context then holds: `TrustContext.load_eq_ok_iff`;
* `TrustContext.Refused` is the first thing that is wrong: `TrustContext.load_eq_error_iff`;
* `RevocationChecker.Unasked` is a checker that has not been used;
* `TrustContext.build_all_or_nothing`: every configuration is accepted, with all that it names, or
  refused for the first thing that is wrong.
-/

namespace PeerTrust

/-! ## 1. What is accepted -/

namespace TrustContext

open CredentialStore (Available Unavailable)
open KeyManagers (EntryUsable)
open LocalCrls (FileHolds)

/-- An identity store is right: it is available, it has a private key, and all that it has are
usable. -/
structure IdentitySound (files : Files) (config : StoreConfig) (store : CredentialStore) :
    Prop where
  available : Available files config store
  hasKey : store.keyEntries ≠ []
  usable : ∀ entry ∈ store.keyEntries, ∃ i, EntryUsable config.password entry i

/-- The first thing that is wrong with an identity store. -/
inductive IdentityRefused (files : Files) (config : StoreConfig) : TrustError → Prop where
  | store {e : StoreError} (unavailable : Unavailable .identity files config e) :
      IdentityRefused files config (.store e)
  | keys {store : CredentialStore} {e : KeyRecoveryError} (available : Available files config store)
      (refused : KeyManagers.Refused config.password store e) :
      IdentityRefused files config (.keyRecovery e)

/-- A trust store and the settings of revocation checks are right: the store is available, all CRLs
of files and of the store are readable, and a certificate that is trusted can be an anchor. -/
structure TrustSound (files : Files) (config : StoreConfig) (revocation : RevocationConfig)
    (store : CredentialStore) : Prop where
  available : Available files config store
  crlFiles : ∀ path ∈ revocation.crlPaths, ∃ crl, FileHolds files path crl
  storeCrls : ∀ der ∈ store.crls, ∃ crl, Crl.parse der = .ok crl
  anchor : ∃ c ∈ store.trusted, ∃ a, Pkix.Anchor.ofDer? c.der = some a

/-- The first thing that is wrong with them. -/
inductive TrustRefused (files : Files) (config : StoreConfig) (revocation : RevocationConfig) :
    TrustError → Prop where
  | store {e : StoreError} (unavailable : Unavailable .trust files config e) :
      TrustRefused files config revocation (.store e)
  | crls {store : CredentialStore} {e : CrlError} (available : Available files config store)
      (refused : LocalCrls.Refused files revocation.crlPaths store.crls e) :
      TrustRefused files config revocation (.badCrls e)
  | anchors {store : CredentialStore} (available : Available files config store)
      (crlFiles : ∀ path ∈ revocation.crlPaths, ∃ crl, FileHolds files path crl)
      (storeCrls : ∀ der ∈ store.crls, ∃ crl, Crl.parse der = .ok crl)
      (none : ∀ c ∈ store.trusted, Pkix.Anchor.ofDer? c.der = none) :
      TrustRefused files config revocation (.noAnchor store.entries.length .trust)

/-- A configuration is accepted, with these stores. -/
structure Accepted (files : Files) (config : TrustConfig) (identity trust : CredentialStore) :
    Prop where
  identity : IdentitySound files config.identity identity
  trust : TrustSound files config.trust config.revocation trust

/-- The first thing that is wrong with a configuration. -/
inductive Refused (files : Files) (config : TrustConfig) : TrustError → Prop where
  | identity {e : TrustError} (refused : IdentityRefused files config.identity e) :
      Refused files config e
  | trust {store : CredentialStore} {e : TrustError}
      (identity : IdentitySound files config.identity store)
      (refused : TrustRefused files config.trust config.revocation e) : Refused files config e

/-- All keys of a store are taken. -/
def TakesKeys (password : Option Secret) (store : CredentialStore) (keys : KeyManagers) : Prop :=
  ∃ is, keys = [⟨is⟩] ∧ List.Forall₂ (EntryUsable password) store.keyEntries is

/-- All CRLs are taken, and nothing is kept yet. -/
def TakesCrls (files : Files) (revocation : RevocationConfig) (store : CredentialStore)
    (k : RevocationChecker) : Prop :=
  ∃ fromFiles fromStore, k = ⟨revocation, fromFiles ++ fromStore, .empty, .empty⟩ ∧
    List.Forall₂ (FileHolds files) revocation.crlPaths fromFiles ∧
    List.Forall₂ (fun der crl => Crl.parse der = .ok crl) store.crls fromStore

/-- A context holds all that its stores do. -/
structure Complete (files : Files) (config : TrustConfig) (identity trust : CredentialStore)
    (c : TrustContext) : Prop where
  keys : TakesKeys config.identity.password identity c.keys
  anchors : c.verifier = ⟨TrustAnchor.ofStore trust⟩
  crls : TakesCrls files config.revocation trust c.checker
  unused : c.created = 0

variable {files : Files} {store : CredentialStore} {e : TrustError}

section Identity

variable {config : StoreConfig} {keys : KeyManagers}

theorem loadKeys_eq_ok_iff : loadKeys files config = .ok keys ↔
    ∃ store, IdentitySound files config store ∧ TakesKeys config.password store keys := by
  simp only [loadKeys, bind_eq_ok_iff, mapError_eq_ok_iff, CredentialStore.load_eq_ok_iff,
    KeyManagers.derive_eq_ok_iff]
  constructor
  · rintro ⟨store, havailable, hkey, is, rfl, his⟩
    exact ⟨store, ⟨havailable, hkey, exists_of_forall₂ his⟩, is, rfl, his⟩
  · rintro ⟨store, hsound, is, rfl, his⟩
    exact ⟨store, hsound.available, hsound.hasKey, is, rfl, his⟩

theorem loadKeys_eq_error_iff :
    loadKeys files config = .error e ↔ IdentityRefused files config e := by
  simp only [loadKeys, bind_eq_error_iff, mapError_eq_ok_iff, mapError_eq_error_iff,
    CredentialStore.load_eq_ok_iff, CredentialStore.load_eq_error_iff,
    KeyManagers.derive_eq_error_iff]
  constructor
  · rintro (⟨cause, hunavailable, rfl⟩ | ⟨store, havailable, cause, hrefused, rfl⟩)
    · exact .store hunavailable
    · exact .keys havailable hrefused
  · intro h
    cases h with
    | @store cause hunavailable => exact .inl ⟨cause, hunavailable, rfl⟩
    | @keys store cause havailable hrefused =>
      exact .inr ⟨store, havailable, cause, hrefused, rfl⟩

/-- Of all files, only its own matters for an identity store. -/
theorem loadKeys_congr {files' : Files} (h : files' config.path = files config.path) :
    loadKeys files' config = loadKeys files config := by
  simp only [loadKeys, CredentialStore.load, CredentialStore.readFile, h]

end Identity

section Trust

variable {config : StoreConfig} {revocation : RevocationConfig} {v : PeerVerifier}
  {k : RevocationChecker}

theorem checker_load_eq_ok_iff : RevocationChecker.load revocation files store.crls = .ok k ↔
    TakesCrls files revocation store k := by
  simp only [RevocationChecker.load, bind_eq_ok_iff, LocalCrls.load_eq_ok_iff_forall₂, TakesCrls]
  constructor
  · rintro ⟨crls, ⟨fromFiles, fromStore, rfl, hfiles, hstore⟩, h⟩
    cases h
    exact ⟨fromFiles, fromStore, rfl, hfiles, hstore⟩
  · rintro ⟨fromFiles, fromStore, rfl, hfiles, hstore⟩
    exact ⟨_, ⟨fromFiles, fromStore, rfl, hfiles, hstore⟩, rfl⟩

theorem checker_load_eq_error_iff {cause : CrlError} :
    RevocationChecker.load revocation files store.crls = .error cause ↔
      LocalCrls.Refused files revocation.crlPaths store.crls cause := by
  simp only [RevocationChecker.load, bind_eq_error_iff, LocalCrls.load_eq_error_iff]
  refine ⟨?_, .inl⟩
  rintro (hrefused | ⟨_, _, h⟩)
  · exact hrefused
  · cases h

theorem anchor_iff : TrustAnchor.ofStore store ≠ [] ↔
    ∃ c ∈ store.trusted, ∃ a, Pkix.Anchor.ofDer? c.der = some a := by
  simp [TrustAnchor.ofStore_eq_nil_iff, Option.ne_none_iff_exists']

theorem loadTrust_eq_ok_iff : loadTrust files config revocation = .ok (v, k) ↔
    ∃ store, TrustSound files config revocation store ∧ v = ⟨TrustAnchor.ofStore store⟩ ∧
      TakesCrls files revocation store k := by
  simp only [loadTrust, bind_eq_ok_iff, mapError_eq_ok_iff, CredentialStore.load_eq_ok_iff,
    checker_load_eq_ok_iff, PeerVerifier.derive_eq_ok_iff, anchor_iff]
  constructor
  · rintro ⟨store, havailable, k', hcrls, v', ⟨hanchor, rfl⟩, h⟩
    cases h
    obtain ⟨fromFiles, fromStore, -, hfiles, hstore⟩ := id hcrls
    exact ⟨store, ⟨havailable, exists_of_forall₂ hfiles, exists_of_forall₂ hstore, hanchor⟩, rfl,
      hcrls⟩
  · rintro ⟨store, hsound, rfl, hcrls⟩
    exact ⟨store, hsound.available, k, hcrls, _, ⟨hsound.anchor, rfl⟩, rfl⟩

theorem loadTrust_eq_error_iff : loadTrust files config revocation = .error e ↔
    TrustRefused files config revocation e := by
  simp only [loadTrust, bind_eq_error_iff, mapError_eq_ok_iff, mapError_eq_error_iff,
    CredentialStore.load_eq_ok_iff, CredentialStore.load_eq_error_iff, checker_load_eq_ok_iff,
    checker_load_eq_error_iff, CredentialStore.derive_eq_error_iff,
    TrustAnchor.ofStore_eq_nil_iff]
  constructor
  · rintro (⟨cause, hunavailable, rfl⟩ | ⟨store, havailable, ⟨cause, hrefused, rfl⟩ |
      ⟨k, ⟨fromFiles, fromStore, -, hfiles, hstore⟩, ⟨rfl, hnone⟩ | ⟨_, _, h⟩⟩⟩)
    · exact .store hunavailable
    · exact .crls havailable hrefused
    · exact .anchors havailable (exists_of_forall₂ hfiles) (exists_of_forall₂ hstore) hnone
    · cases h
  · intro h
    cases h with
    | @store cause hunavailable => exact .inl ⟨cause, hunavailable, rfl⟩
    | @crls store cause havailable hrefused =>
      exact .inr ⟨store, havailable, .inl ⟨cause, hrefused, rfl⟩⟩
    | @anchors store havailable hfiles hstore hnone =>
      obtain ⟨fromFiles, hfiles⟩ := exists_forall₂ hfiles
      obtain ⟨fromStore, hstore⟩ := exists_forall₂ hstore
      exact .inr ⟨store, havailable,
        .inr ⟨_, ⟨fromFiles, fromStore, rfl, hfiles, hstore⟩, .inl ⟨rfl, hnone⟩⟩⟩

end Trust

variable {config : TrustConfig} {c : TrustContext}

theorem load_eq_ok_iff : load files config = .ok c ↔ ∃ identity trust,
    Accepted files config identity trust ∧ Complete files config identity trust c := by
  simp only [load, bind_eq_ok_iff, Prod.exists, loadKeys_eq_ok_iff, loadTrust_eq_ok_iff]
  constructor
  · rintro ⟨keys, ⟨identity, hidentity, hkeys⟩, v, k, ⟨trust, htrust, rfl, hcrls⟩, h⟩
    cases h
    exact ⟨identity, trust, ⟨hidentity, htrust⟩, ⟨hkeys, rfl, hcrls, rfl⟩⟩
  · rintro ⟨identity, trust, haccepted, hcomplete⟩
    obtain ⟨keys, v, k, created⟩ := c
    obtain ⟨hkeys, rfl, hcrls, rfl⟩ := hcomplete
    exact ⟨keys, ⟨identity, haccepted.identity, hkeys⟩, _, k, ⟨trust, haccepted.trust, rfl, hcrls⟩,
      rfl⟩

theorem load_eq_error_iff : load files config = .error e ↔ Refused files config e := by
  simp only [load, bind_eq_error_iff, Prod.exists, loadKeys_eq_ok_iff, loadKeys_eq_error_iff,
    loadTrust_eq_error_iff]
  constructor
  · rintro (hrefused | ⟨keys, ⟨store, hsound, -⟩, hrefused | ⟨_, _, _, h⟩⟩)
    · exact .identity hrefused
    · exact .trust hsound hrefused
    · cases h
  · intro h
    cases h with
    | identity hrefused => exact .inl hrefused
    | @trust store _ hsound hrefused =>
      obtain ⟨is, his⟩ := exists_forall₂ hsound.usable
      exact .inr ⟨_, ⟨store, hsound, is, rfl, his⟩, .inl hrefused⟩

/-- What is accepted can be taken. -/
theorem Accepted.exists_complete {identity trust : CredentialStore}
    (h : Accepted files config identity trust) : ∃ c, Complete files config identity trust c := by
  obtain ⟨is, his⟩ := exists_forall₂ h.identity.usable
  obtain ⟨fromFiles, hfiles⟩ := exists_forall₂ h.trust.crlFiles
  obtain ⟨fromStore, hstore⟩ := exists_forall₂ h.trust.storeCrls
  exact ⟨⟨_, _, _, _⟩, ⟨is, rfl, his⟩, rfl, ⟨fromFiles, fromStore, rfl, hfiles, hstore⟩, rfl⟩

end TrustContext

/-! ## 2. What is asked -/

/-- In a run, every question is warranted by a use in it. -/
theorem PeerStep.run_calls (o : Outside) (state : RevocationState) (steps : List PeerStep) :
    state.2.ExtendedBy (fun call => ∃ step ∈ steps, step.Warrants state.1.config call)
      (run o state steps).2 := by
  induction steps generalizing state with
  | nil => exact .refl _ _
  | cons step steps ih =>
    obtain ⟨hconfig, hfirst⟩ := apply_calls o state step
    have hlater := ih (apply o state step)
    rw [hconfig] at hlater
    exact (hfirst.mono fun _ h => ⟨step, List.mem_cons_self, h⟩).trans
      (hlater.mono fun _ ⟨step', hstep', h⟩ => ⟨step', List.mem_cons_of_mem step hstep', h⟩)

/-- A checker has not been used: it has found and missed nothing, it keeps nothing, and all that is
asked until some time is asked by the uses of it until then. -/
structure RevocationChecker.Unasked (k : RevocationChecker) : Prop where
  stats : k.stats = ⟨0, 0, 0, 0, 0, 0⟩
  calls : ∀ o steps, Calls.ExtendedBy
    (fun call => ∃ step ∈ steps, PeerStep.Warrants k.config step call) []
    (PeerStep.run o (k, []) steps).2

/-! ## 3. All or nothing -/

namespace TrustContext

variable {files : Files} {config : TrustConfig} {c : TrustContext}

theorem Complete.unasked {identity trust : CredentialStore}
    (h : Complete files config identity trust c) : c.checker.Unasked := by
  obtain ⟨fromFiles, fromStore, hchecker, -⟩ := h.crls
  exact ⟨by rw [hchecker]; rfl, fun o steps => PeerStep.run_calls o (c.checker, []) steps⟩

/-- **A context holds all that is configured, or there is none.** A configuration gives a context
exactly if it is accepted, and the context then has every key, CRL and anchor of the stores and
files; else it gives the error of the first thing that is wrong. What is wrong with the identity
store is the same whatever the trust store, its CRLs, other files and the settings of revocation
checks are. In either case OCSP is enabled from then on; what is built has asked nothing. -/
theorem build_all_or_nothing (files : Files) (config : TrustConfig) (p : SecurityPolicy) :
    ((∃ c, (build files config p).1 = .ok c) ↔
      ∃ identity trust, Accepted files config identity trust) ∧
    (∀ c, (build files config p).1 = .ok c ↔ ∃ identity trust,
      Accepted files config identity trust ∧ Complete files config identity trust c) ∧
    (∀ e, (build files config p).1 = .error e ↔ Refused files config e) ∧
    (∀ e, IdentityRefused files config.identity e → ∀ files' config' p',
      config'.identity = config.identity →
      files' config.identity.path = files config.identity.path →
        (build files' config' p').1 = .error e) ∧
    (build files config p).2.ocspEnabled = true ∧
    ∀ c, (build files config p).1 = .ok c → c.checker.Unasked := by
  refine ⟨⟨?_, ?_⟩, fun c => load_eq_ok_iff, fun e => load_eq_error_iff, ?_, rfl, ?_⟩
  · rintro ⟨c, hc⟩
    obtain ⟨identity, trust, haccepted, -⟩ := load_eq_ok_iff.mp hc
    exact ⟨identity, trust, haccepted⟩
  · rintro ⟨identity, trust, haccepted⟩
    obtain ⟨c, hcomplete⟩ := haccepted.exists_complete
    exact ⟨c, load_eq_ok_iff.mpr ⟨identity, trust, haccepted, hcomplete⟩⟩
  · intro e hrefused files' config' p' hidentity hfile
    have hkeys : loadKeys files' config.identity = .error e :=
      (loadKeys_congr hfile).trans (loadKeys_eq_error_iff.mpr hrefused)
    rw [← hidentity] at hkeys
    exact load_eq_error_iff.mpr (.identity (loadKeys_eq_error_iff.mp hkeys))
  · intro c hc
    obtain ⟨identity, trust, -, hcomplete⟩ := load_eq_ok_iff.mp hc
    exact hcomplete.unasked

end TrustContext

/-! ## 4. A context of one identity -/

namespace ConstructionSample

open CredentialStore KeyManagers
open CrlSample (signature)
open PathSample (certificate ofDer_renewed point renewed)
open StoreSample (renewedBlock)
open X509.Strict (encodeSequence)

/-- The public half of the key one: the point that generates the curve. -/
def generator : Bytes := point Weierstrass.p256.gx Weierstrass.p256.gy

/-- A certificate of it. -/
def leaf : Certificate := certificate 7 "root" "peer" generator false (signature 1 1)

/-- The key, on its own. -/
def keyOctets : Bytes :=
  encodeSequence [Der.encodeNatural 1, Der.encode Der.tagOctets (Bytes.ofNat 32 1),
    Der.encode (Der.tagExplicit 1) (Der.encode Der.tagBits (0 :: generator))]

def key : SigningKey :=
  ⟨.p256, KeyAlgorithm.publicKey (KeyAlgorithm.onCurve Oid.curveP256) generator⟩

def leafBlock : Pem.Block := ⟨"CERTIFICATE", leaf.der⟩

def keyBlock : Pem.Block := ⟨"EC PRIVATE KEY", keyOctets⟩

def identity : CredentialStore := ⟨[.privateKey "peer" [leaf] ⟨.sec1, ⟨keyOctets⟩⟩], []⟩

def trust : CredentialStore := ⟨[.trusted "mid" renewed], []⟩

/-- One file for each store. -/
def files : Files := fun path =>
  if path = "identity.pem" then .ok ([leafBlock, keyBlock].flatMap Pem.Block.octets)
  else .ok ([renewedBlock].flatMap Pem.Block.octets)

def config : TrustConfig where
  identity := ⟨"identity.pem", none, "PEM"⟩
  trust := ⟨"trust.pem", none, "pem"⟩
  revocation := .standard

theorem ofDer_leaf : Certificate.ofDer leaf.der = .ok leaf := by decide +kernel

theorem parse_identity : parse ([leafBlock, keyBlock].flatMap Pem.Block.octets) = .ok identity := by
  have hwritable : ∀ block ∈ [leafBlock, keyBlock], Writable block := by
    simp only [List.forall_mem_cons, List.not_mem_nil, false_implies, implies_true, and_true]
    exact ⟨⟨by decide, by decide⟩, by decide, by decide⟩
  have hleaf : Sorts [leafBlock] ⟨[], [], [leaf]⟩ := .pass .start (.certificate rfl ofDer_leaf)
  have hkey : Sorts [leafBlock, keyBlock]
      ⟨[.privateKey (StoreEntry.labelOf leaf 0) [leaf] ⟨.sec1, ⟨keyOctets⟩⟩], [], []⟩ :=
    .pass hleaf (.key rfl rfl)
  exact ((readsAs_octets (by simp) hwritable).parse_eq (by simp)).trans hkey.finishes

theorem parse_trust : parse ([renewedBlock].flatMap Pem.Block.octets) = .ok trust := by
  have hwritable : ∀ block ∈ [renewedBlock], Writable block := by
    rw [List.forall_mem_singleton]
    exact ⟨by decide, by decide⟩
  have hrenewed : Sorts [renewedBlock] ⟨[], [], [renewed]⟩ :=
    .pass .start (.certificate rfl ofDer_renewed)
  exact ((readsAs_octets (by simp) hwritable).parse_eq (by simp)).trans hrenewed.finishes

theorem entry_usable : EntryUsable none ("peer", [leaf], ⟨.sec1, ⟨keyOctets⟩⟩)
    ⟨"peer", [leaf], key⟩ where
  label_eq := rfl
  chain_eq := rfl
  key := ⟨.sec1, ⟨keyOctets⟩, rfl, by decide +kernel⟩
  leaf := by
    rintro leaf' ⟨⟩
    exact Identity.checkLeaf_eq_ok_iff.mp (by decide +kernel)

theorem accepted : TrustContext.Accepted files config identity trust where
  identity :=
    { available := ⟨.pem, _, by decide, rfl, .pem parse_identity nofun⟩
      hasKey := List.cons_ne_nil _ _
      usable := by
        intro entry hentry
        obtain rfl := List.mem_singleton.mp hentry
        exact ⟨_, entry_usable⟩ }
  trust :=
    { available := ⟨.pem, _, by decide, rfl, .pem parse_trust nofun⟩
      crlFiles := nofun
      storeCrls := nofun
      anchor :=
        ⟨renewed, List.mem_singleton_self _, Option.isSome_iff_exists.mp (by decide +kernel)⟩ }

/-- The identity store is declared as of a type that is not supported. -/
def unsupported : TrustConfig := { config with identity := ⟨"identity.pem", none, "JKS"⟩ }

/-- The trust store is not there. -/
def identityOnly : Files := fun path =>
  if path = "identity.pem" then files path else .error .notFound

end ConstructionSample

open ConstructionSample in
theorem TrustContext.build_all_or_nothing_of_sample :
    (∃ c, (build files config .initial).1 = .ok c ∧ c.checker.Unasked) ∧
      (build identityOnly { unsupported with trust := ⟨"trust.pem", none, "JKS"⟩ } .initial).1 =
        .error (.store (.unsupportedType .identity "JKS")) := by
  obtain ⟨haccepts, -, -, -, -, hunasked⟩ := build_all_or_nothing files config .initial
  obtain ⟨c, hc⟩ := haccepts.mpr ⟨identity, trust, accepted⟩
  obtain ⟨-, -, -, hrefused, -⟩ := build_all_or_nothing files unsupported .initial
  have htype : IdentityRefused files unsupported.identity _ := .store (.type (by decide))
  exact ⟨⟨c, hc, hunasked c hc⟩, hrefused _ htype identityOnly _ .initial rfl (if_pos rfl)⟩

end PeerTrust
