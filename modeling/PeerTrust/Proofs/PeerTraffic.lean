import PeerTrust.Proofs.PeerAcceptance
import PeerTrust.Proofs.ResponderTurns
import PeerTrust.Proofs.SourceOrder

/-!
# For whom the network is asked

Where a question goes is written in certificates, and a peer may present any. So none is asked
before the chain of the peer is accepted, and then only for certificates on its path.

* `Call.IsFor` is a question to a place that the configuration sets or a certificate names;
* `RevocationChecker.check_calls`, `PeerVerifier.checkLinks_calls`: the check of a certificate puts
  no other, the checks of links put no other than those of one of them;
* `PeerVerifier.Warranted` is when a peer gives reason for a question: `PeerVerifier.check_calls`;
* `PeerStep` is one use of a checker that verifiers share, `PeerStep.run` a sequence of uses;
  `PeerStep.asked_only_for_trusted`: peers that are not trusted leave no trace, and every question
  of every run is warranted by the peer that is verified then. `PeerStep.asked_with_issuer_only`
  is a peer for whom nothing is asked unless it presents the issuer that its path leads over.
-/

namespace PeerTrust

/-! ## 1. One certificate -/

/-- A question for a certificate: to the responder that is set or, where none is, to one that the
certificate names; or a download from a distribution point that it names. -/
inductive Call.IsFor (cfg : RevocationConfig) (c : Certificate) : Call → Prop where
  | configured {url : Url} {body : Bytes} (isSet : cfg.responder = some url) :
      IsFor cfg c (.post url body cfg.ocspTimeout)
  | responder {text : String} {url : Url} {body : Bytes} (unset : cfg.responder = none)
      (named : text ∈ c.responderUrls) (read : Url.parse text = .ok url) :
      IsFor cfg c (.post url body cfg.ocspTimeout)
  | distributionPoint {text : String} {url : Url} (named : text ∈ c.crlUrls)
      (read : Url.parse text = .ok url) : IsFor cfg c (.get url cfg.crlTimeout)

theorem Calls.ExtendedBy.mono {kind kind' : Call → Prop} {before after : Calls}
    (h : before.ExtendedBy kind after) (hkind : ∀ call, kind call → kind' call) :
    before.ExtendedBy kind' after := by
  obtain ⟨added, rfl, hadded⟩ := h
  exact ⟨added, rfl, fun call hcall => hkind call (hadded call hcall)⟩

namespace OcspCache

theorem exists_text_of_parseUrls {texts : List String} {urls : List Url} {url : Url}
    (h : parseUrls texts = .ok urls) (hurl : url ∈ urls) :
    ∃ text ∈ texts, Url.parse text = .ok url := by
  rw [parseUrls_eq_mapM] at h
  obtain ⟨text, htext, hread⟩ := (mem_mapM_iff h).mp hurl
  exact ⟨text, htext, mapError_eq_ok_iff.mp hread⟩

theorem Asks.isFor {cfg : RevocationConfig} {c : Certificate} {call : Call} (h : Asks cfg c call) :
    call.IsFor cfg c := by
  obtain ⟨urls, url, body, hurls, hurl, rfl⟩ := h
  unfold responders at hurls
  split at hurls
  · rename_i set hset
    cases hurls
    obtain rfl := List.mem_singleton.mp hurl
    exact .configured hset
  · rename_i hunset
    split at hurls
    · cases hurls
    · obtain ⟨text, htext, hread⟩ := exists_text_of_parseUrls hurls hurl
      exact .responder hunset htext hread

/-- A responder that is set but fails was asked once, and the check fails with it. -/
theorem check_of_failed {o : Outside} {cfg : RevocationConfig} {c issuer : Certificate}
    {now : Nat} {cache : OcspCache} {calls : Calls} {url : Url} {request : Ocsp.Request}
    {e : NetworkError} (hset : cfg.responder = some url)
    (hmissed : cache.live? cfg.ocspLifetime now (OcspKey.of c issuer) = none)
    (hrequest : Ocsp.request? c issuer (o.nonce calls) = some request)
    (hreply : o.reply calls (.post url request.encode cfg.ocspTimeout) = .error e) :
    check o cfg c issuer now cache calls =
      (.error (.network e), cache.countMiss, calls ++ [.post url request.encode cfg.ocspTimeout]) := by
  have hquery : queryEach o cfg c issuer now (.ocsp (.noResponder c.displayName)) [url] calls =
      (.error (.network e), calls ++ [.post url request.encode cfg.ocspTimeout]) := by
    simp only [queryEach, query, hrequest, Outside.ask, hreply]
  exact check_of_queryEach_error (.configured hset) hmissed hquery

end OcspCache

theorem CrlCache.Asks.isFor {cfg : RevocationConfig} {c : Certificate} {call : Call}
    (h : Asks cfg c call) : call.IsFor cfg c := by
  obtain ⟨text, htext, url, hread, rfl⟩ := h
  exact .distributionPoint htext hread

namespace RevocationChecker

variable {o : Outside} {enabled : Bool} {c issuer : Certificate} {staple : Option Bytes}
  {now : Nat} {k : RevocationChecker} {calls : Calls}

/-- Whichever source decides, it asks for the certificate at hand only. -/
theorem leaves_calls {source : RevocationSource} {after : RevocationState}
    (h : Leaves o enabled c issuer staple now k calls source after) :
    after.1.config = k.config ∧ calls.ExtendedBy (Call.IsFor k.config c) after.2 := by
  have hocsp : calls.ExtendedBy (Call.IsFor k.config c)
      (afterOcsp o enabled c issuer now k calls).2 :=
    (afterOcsp_calls o enabled c issuer now k calls).mono fun _ => OcspCache.Asks.isFor
  cases source with
  | stapledOcsp =>
    obtain ⟨a, -, rfl⟩ := h
    exact ⟨rfl, .refl _ calls⟩
  | ocsp | localCrl =>
    obtain rfl : after = _ := h
    exact ⟨afterOcsp_config o enabled c issuer now k calls, hocsp⟩
  | distributionPoint =>
    obtain rfl : after = _ := h
    have hfetch : (afterOcsp o enabled c issuer now k calls).2.ExtendedBy (Call.IsFor k.config c)
        (fetched o enabled c issuer now k calls).2.2 :=
      (CrlCache.check_calls o k.config c issuer now k.crls _).mono fun _ => CrlCache.Asks.isFor
    exact ⟨afterOcsp_config o enabled c issuer now k calls, hocsp.trans hfetch⟩

/-- **A check asks for the certificate at hand only.** -/
theorem check_calls (o : Outside) (enabled : Bool) (c issuer : Certificate)
    (staple : Option Bytes) (now : Nat) (k : RevocationChecker) (calls : Calls) :
    (k.check o enabled c issuer staple now calls).2.1.config = k.config ∧
      calls.ExtendedBy (Call.IsFor k.config c)
        (k.check o enabled c issuer staple now calls).2.2 := by
  obtain ⟨source, hleaves⟩ := (check_course o enabled c issuer staple now k calls).leaves
  exact leaves_calls hleaves

end RevocationChecker

/-! ## 2. One peer -/

namespace PeerVerifier

variable (o : Outside) (p : SecurityPolicy) (now : Nat)

/-- A question for the certificate of one of some links. -/
def AsksFor (cfg : RevocationConfig) (links : List Link) (call : Call) : Prop :=
  ∃ link ∈ links, call.IsFor cfg link.certificate

/-- The checks of links ask for the certificates of those links only. -/
theorem checkLinks_calls (staple : Option Bytes) (links : List Link) (k : RevocationChecker)
    (calls : Calls) :
    (checkLinks o p now staple links k calls).2.1.config = k.config ∧
      calls.ExtendedBy (AsksFor k.config links) (checkLinks o p now staple links k calls).2.2 := by
  induction links generalizing staple k calls with
  | nil => exact ⟨rfl, .refl _ calls⟩
  | cons link above ih =>
    obtain ⟨hconfig, hcalls⟩ := RevocationChecker.check_calls o p.ocspEnabled link.certificate
      link.issuer staple now k calls
    have hfirst : calls.ExtendedBy (AsksFor k.config (link :: above)) _ :=
      hcalls.mono fun _ hfor => ⟨link, List.mem_cons_self, hfor⟩
    unfold checkLinks
    split
    · rename_i source k₁ calls₁ checked
      rw [checked] at hconfig hfirst
      obtain ⟨hconfig', hcalls'⟩ := ih none k₁ calls₁
      rw [hconfig] at hconfig' hcalls'
      have hlater : calls₁.ExtendedBy (AsksFor k.config (link :: above)) _ :=
        hcalls'.mono fun _ ⟨l, hl, hfor⟩ => ⟨l, List.mem_cons_of_mem link hl, hfor⟩
      exact ⟨hconfig', hfirst.trans hlater⟩
    · rename_i failure k₁ calls₁ checked
      rw [checked] at hconfig hfirst
      exact ⟨hconfig, hfirst⟩

variable (v : PeerVerifier) (role : PeerRole) (endEntity : Bytes) (intermediates : List Bytes)

/-- A peer is not trusted: its chain is not accepted, or no path leads from it to an anchor. -/
def Untrusted : Prop :=
  (∃ e, v.acceptsChain role endEntity intermediates now = .error e) ∨
    ∃ e, v.path endEntity intermediates = .error e

/-- A peer gives reason for a question: its chain is accepted, and the question is for a certificate
on its path, on which names and signatures lead from each certificate to the next and to an
anchor. -/
structure Warranted (cfg : RevocationConfig) (call : Call) : Prop where
  chain : v.acceptsChain role endEntity intermediates now = .ok ()
  onPath : ∃ links, v.path endEntity intermediates = .ok links ∧
    Path.IsPath endEntity intermediates (v.anchors.map (·.certificate)) links ∧
    AsksFor cfg links call

variable {v role endEntity intermediates now} in
/-- **A peer that is not trusted is refused without a trace.** -/
theorem check_of_untrusted (h : v.Untrusted now role endEntity intermediates)
    (staple : Option Bytes) (k : RevocationChecker) (calls : Calls) :
    ∃ detail, v.check o p role endEntity intermediates staple now k calls =
      (.error (.untrusted detail), k, calls) := by
  unfold PeerVerifier.check
  split
  · exact ⟨_, rfl⟩
  · rename_i hchain
    rcases h with ⟨e, he⟩ | ⟨e, he⟩
    · exact absurd (hchain.symm.trans he) (by simp)
    · rw [he]
      exact ⟨_, rfl⟩

/-- **A peer is asked for only with reason.** -/
theorem check_calls (staple : Option Bytes) (k : RevocationChecker) (calls : Calls) :
    (v.check o p role endEntity intermediates staple now k calls).2.1.config = k.config ∧
      calls.ExtendedBy (v.Warranted now role endEntity intermediates k.config)
        (v.check o p role endEntity intermediates staple now k calls).2.2 := by
  unfold PeerVerifier.check
  split
  · exact ⟨rfl, .refl _ calls⟩
  · rename_i hchain
    split
    · exact ⟨rfl, .refl _ calls⟩
    · rename_i links hpath
      obtain ⟨hconfig, hcalls⟩ := checkLinks_calls o p now staple links k calls
      exact ⟨hconfig, hcalls.mono fun _ hfor =>
        ⟨hchain, links, hpath, Path.isPath_of_build hpath, hfor⟩⟩

end PeerVerifier

/-! ## 3. Many peers -/

/-- One use of a checker that verifiers share: a peer is verified, or the caches are cleaned up. -/
inductive PeerStep where
  | verify (v : PeerVerifier) (p : SecurityPolicy) (use : PeerVerifier.Use) (endEntity : Bytes)
      (intermediates : List Bytes) (now : Nat)
  | cleanup (now : Nat)

namespace PeerStep

/-- What a use leaves behind. -/
def apply (o : Outside) (state : RevocationState) : PeerStep → RevocationState
  | verify v p use endEntity intermediates now =>
    (use.run o p v endEntity intermediates now state.1 state.2).2
  | cleanup now => (state.1.cleanup now, state.2)

/-- What a sequence of uses leaves behind. -/
def run (o : Outside) (state : RevocationState) (steps : List PeerStep) : RevocationState :=
  steps.foldl (apply o) state

/-- A use gives reason for a question. A clean-up never does. -/
def Warrants (cfg : RevocationConfig) : PeerStep → Call → Prop
  | verify v _ use endEntity intermediates now =>
    v.Warranted now use.role endEntity intermediates cfg
  | cleanup _ => fun _ => False

theorem apply_calls (o : Outside) (state : RevocationState) (step : PeerStep) :
    (apply o state step).1.config = state.1.config ∧
      state.2.ExtendedBy (step.Warrants state.1.config) (apply o state step).2 := by
  cases step with
  | verify v p use endEntity intermediates now =>
    simp only [apply, PeerVerifier.Use.run_eq]
    exact PeerVerifier.check_calls o p now v use.role endEntity intermediates use.staple _ _
  | cleanup now => exact ⟨rfl, .refl _ _⟩

theorem run_config (o : Outside) (state : RevocationState) (steps : List PeerStep) :
    (run o state steps).1.config = state.1.config := by
  induction steps generalizing state with
  | nil => rfl
  | cons step steps ih => exact (ih (apply o state step)).trans (apply_calls o state step).1

/-- **The network is asked only for peers that are trusted.** Whichever use of a verifier meets a
peer whose chain is not accepted, or from which no path leads to an anchor, refuses it, and neither
asks nor looks anything up, counts or keeps. And in every run, whatever is asked during a use is
asked for a certificate on the path of the peer that is verified by it. -/
theorem asked_only_for_trusted (o : Outside) :
    (∀ (v : PeerVerifier) (p : SecurityPolicy) (use : PeerVerifier.Use) (endEntity : Bytes)
        (intermediates : List Bytes) (now : Nat) (k : RevocationChecker) (calls : Calls),
      v.Untrusted now use.role endEntity intermediates →
        ∃ detail, use.run o p v endEntity intermediates now k calls =
          (.error (some (.untrusted detail)), k, calls)) ∧
    ∀ (start : RevocationState) (steps : List PeerStep) (step : PeerStep),
      (run o start steps).2.ExtendedBy (step.Warrants start.1.config)
        (run o start (steps ++ [step])).2 := by
  constructor
  · intro v p use endEntity intermediates now k calls h
    obtain ⟨detail, hcheck⟩ := PeerVerifier.check_of_untrusted o p h use.staple k calls
    refine ⟨detail, ?_⟩
    rw [PeerVerifier.Use.run_eq, hcheck]
    rfl
  · intro start steps step
    have hstep := (apply_calls o (run o start steps) step).2
    rw [run_config] at hstep
    simpa [run] using hstep

end PeerStep

namespace PeerSample

open AnswerSample (now silent)
open PathSample (leaf mid)

/-- A responder that is set. -/
def responder : Url := ⟨"http", some ⟨"", none, some (.domain "ocsp.test"), none⟩, "/", none, none⟩

/-- A question to it. -/
def question (body : Bytes) : Call := .post responder body 10

/-- The checker that asks it before the CRLs at hand, after it missed some answers. -/
def asking (misses : Nat) : RevocationChecker where
  config := { RevocationConfig.standard with responder := some responder }
  localCrls := [midCrl, CrlSample.clean]
  ocsp := ⟨[], 0, misses⟩
  crls := .empty

/-- While it fails, every certificate costs one question, and CRLs at hand decide. -/
theorem check_asking {c issuer : Certificate} {request : Ocsp.Request}
    (hrequest : Ocsp.request? c issuer [] = some request)
    (hlocal : LocalCrls.check [midCrl, CrlSample.clean] c issuer now = some (.ok .valid))
    (misses : Nat) (calls : Calls) :
    (asking misses).check silent true c issuer none now calls =
      (.ok .localCrl, asking (misses + 1), calls ++ [question request.encode]) := by
  have hocsp : (asking misses).ocsp.check silent (asking misses).config c issuer now calls =
      (.error (.network default), (asking misses).ocsp.countMiss,
        calls ++ [question request.encode]) :=
    OcspCache.check_of_failed rfl rfl hrequest rfl
  have hdeclines : RevocationChecker.Declines silent true c issuer none now (asking misses) calls
      .ocsp (OcspCacheError.network default).message :=
    .inr ⟨rfl, .inl ⟨_, congrArg Prod.fst hocsp, rfl⟩⟩
  rw [RevocationChecker.check_of_localCrl hdeclines hlocal, RevocationChecker.afterOcsp, hocsp]
  rfl

theorem chain_refused : verifier.acceptsChain .client leaf.der [] now = .error .unknownIssuer := by
  decide +kernel

/-- The client below the intermediate issuer is verified. -/
def verification : PeerStep := .verify verifier ⟨true⟩ .verifyClient leaf.der [mid.der] now

theorem apply_verification {forLeaf forMid : Ocsp.Request}
    (hleaf : Ocsp.request? leaf mid [] = some forLeaf)
    (hmid : Ocsp.request? mid root [] = some forMid) :
    verification.apply silent (asking 0, []) =
      (asking 2, [question forLeaf.encode, question forMid.encode]) := by
  have hvouched : PeerVerifier.Vouched silent ⟨true⟩ now none [⟨leaf, mid⟩, ⟨mid, root⟩]
      (asking 0, []) (asking 2, [question forLeaf.encode, question forMid.encode]) :=
    .next (check_asking hleaf (says_leaf rfl) 0 [])
      (.next (check_asking hmid clean_says_mid 1 [question forLeaf.encode]) .done)
  rw [verification, PeerStep.apply, ← verified, verified_eq,
    PeerVerifier.checkLinks_eq_ok_iff.mpr hvouched]
  rfl

end PeerSample

open AnswerSample (now silent) in
open PathSample (leaf mid) in
open PeerSample in
theorem PeerStep.asked_with_issuer_only :
    (∃ detail, PeerVerifier.Use.verifyClient.run silent ⟨true⟩ verifier leaf.der [] now (asking 0)
      [] = (.error (some (.untrusted detail)), asking 0, [])) ∧
    ∃ forLeaf forMid, run silent (asking 0, []) [verification] =
        (asking 2, [question forLeaf, question forMid]) ∧
      ∀ call ∈ [question forLeaf, question forMid],
        verification.Warrants (asking 0).config call := by
  obtain ⟨hrefused, hwarranted⟩ := asked_only_for_trusted silent
  refine ⟨hrefused verifier ⟨true⟩ .verifyClient leaf.der [] now (asking 0) []
    (.inl ⟨_, chain_refused⟩), ?_⟩
  obtain ⟨forLeaf, hleaf⟩ : ∃ request, Ocsp.request? leaf mid [] = some request := ⟨_, rfl⟩
  obtain ⟨forMid, hmid⟩ : ∃ request, Ocsp.request? mid root [] = some request := ⟨_, rfl⟩
  have hrun : run silent (asking 0, []) [verification] =
      (asking 2, [question forLeaf.encode, question forMid.encode]) := by
    rw [run, List.foldl_cons, List.foldl_nil, apply_verification hleaf hmid]
  refine ⟨_, _, hrun, ?_⟩
  obtain ⟨added, hadded, hreason⟩ := hwarranted (asking 0, []) [] verification
  rw [List.nil_append, hrun] at hadded
  obtain rfl : _ = added := hadded
  exact hreason

end PeerTrust
