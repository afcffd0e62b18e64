import PeerTrust.Proofs.Evidence
import PeerTrust.Proofs.KeptCrls
import PeerTrust.Proofs.Looks
import PeerTrust.Proofs.StapleConfinement

/-!
# The books of a checker

A run of a checker is one long series of looks, and its counts are those of the looks.

* `Look.Series` are looks in a row; `Look.Series.books` adds them up;
* `Look.InTurn` are looks in turn, up to the first that is definite: at the locations of CRLs
  (`Look.Walk`), and at the sources of a check (`Look.ForCheck`);
* `RevocationChecker.check_series` is a check as a series of looks;
* `RevocationStep.Recorded` are the looks of a run, and `RevocationStep.run_books` is the result.
-/

namespace PeerTrust

/-! ## 1. Looks in a row -/

namespace Look

/-- Looks follow one another in a check of a certificate of an issuer. -/
inductive Series (o : Outside) (c issuer : Certificate) (now : Nat) :
    RevocationState → List Look → RevocationState → Prop where
  | nil (state : RevocationState) : Series o c issuer now state [] state
  | cons {before middle after : RevocationState} {look : Look} {looks : List Look}
      (first : Occurs o c issuer now before look middle)
      (rest : Series o c issuer now middle looks after) :
      Series o c issuer now before (look :: looks) after

/-- Looks in turn, up to the first that is definite; where none is, others follow. -/
inductive InTurn {κ : Type} (isAt : κ → Look → Prop) (others : List Look → Prop) :
    List κ → List Look → Prop where
  | exhausted {looks : List Look} (follow : others looks) : InTurn isAt others [] looks
  | ends {key : κ} {keys : List κ} {look : Look} (here : isAt key look)
      (definite : look.isDefinite = true) : InTurn isAt others (key :: keys) [look]
  | goesOn {key : κ} {keys : List κ} {look : Look} {looks : List Look} (here : isAt key look)
      (declines : look.isDefinite = false) (later : InTurn isAt others keys looks) :
      InTurn isAt others (key :: keys) (look :: looks)

/-- CRLs are looked at by location, in order, up to the first that gives a status. -/
def Walk : List String → List Look → Prop :=
  InTurn (fun url look => look.location? = some url) (· = [])

/-- The sources before distribution points; a staple that is empty is none. -/
def beforeDistribution (enabled : Bool) (staple : Option Bytes) : List RevocationSource :=
  (if staple.getD [] = [] then [] else [.stapledOcsp]) ++ (if enabled then [.ocsp] else []) ++
    [.localCrl]

/-- Sources are looked at once each, in order, up to the first that is definite; the locations of
CRLs come last. -/
def Sources (c : Certificate) : List RevocationSource → List Look → Prop :=
  InTurn (fun source look => look.source = source) (Walk c.crlUrls)

/-- The looks of a check. -/
def ForCheck (enabled : Bool) (c : Certificate) (staple : Option Bytes) : List Look → Prop :=
  Sources c (beforeDistribution enabled staple)

section Series

variable {o : Outside} {c issuer : Certificate} {now : Nat} {first middle last : RevocationState}
  {look : Look} {looks : List Look}

theorem Series.single (h : Occurs o c issuer now first look last) :
    Series o c issuer now first [look] last := .cons h (.nil last)

theorem Series.config (h : Series o c issuer now first looks last) :
    last.1.config = first.1.config := by
  induction h with
  | nil => rfl
  | cons hfirst _ ih => rw [ih, hfirst.config]

/-- **Looks in a row add up.** -/
theorem Series.books (h : Series o c issuer now first looks last) : Books looks first last := by
  induction h with
  | nil state => exact .refl state
  | cons hfirst _ ih => exact hfirst.books.append ih

/-- A look, and the looks after it where it is not definite. -/
theorem InTurn.exists_cons {κ : Type} {isAt : κ → Look → Prop} {others : List Look → Prop} {key : κ}
    {keys : List κ} (here : isAt key look) (h : Occurs o c issuer now first look middle)
    (ends : look.isDefinite = true → last = middle)
    (goesOn : look.isDefinite = false → ∃ looks, InTurn isAt others keys looks ∧
      Series o c issuer now middle looks last) :
    ∃ looks, InTurn isAt others (key :: keys) looks ∧ Series o c issuer now first looks last := by
  cases hdefinite : look.isDefinite with
  | true =>
    obtain rfl := ends hdefinite
    exact ⟨[look], .ends here hdefinite, .single h⟩
  | false =>
    obtain ⟨looks, hlater, hseries⟩ := goesOn hdefinite
    exact ⟨look :: looks, .goesOn here hdefinite hlater, .cons h hseries⟩

end Series

end Look

/-! ## 2. The looks of a check -/

/-- Responders can be asked about a certificate: one is set, or all locations that it names are
URLs; and a question can be written. -/
structure Askable (cfg : RevocationConfig) (c issuer : Certificate) : Prop where
  urls : cfg.responder = none → ∀ text ∈ c.responderUrls, ∃ url, Url.parse text = .ok url
  question : (Ocsp.certId? c issuer).isSome = true

section Checks

variable {o : Outside} {enabled : Bool} {c issuer : Certificate} {staple : Option Bytes}
  {now : Nat} {k : RevocationChecker} {calls after : Calls}

namespace CrlCache

/-- What is done for one location is one look. -/
theorem exists_look {url : String} {result : Except CrlCacheError CrlStatus} {crls : CrlCache}
    (ran : checkAt o k.config url c issuer now k.crls calls = (result, crls, after)) :
    ∃ look : Look, look.location? = some url ∧
      look.verdict = .ofResult CrlCacheError.message .ofCrl result ∧
      look.Occurs o c issuer now (k, calls) ({ k with crls }, after) := by
  cases hlive : k.crls.live? k.config.crlLifetime now url with
  | some kept =>
    rw [checkAt_of_live? calls hlive] at ran
    cases ran
    exact ⟨.crlHit url _, rfl, rfl, .crlHit hlive⟩
  | none =>
    obtain ⟨result', crls', hmiss, -⟩ := checkAt_miss hlive
    obtain ⟨rfl, hrest⟩ := Prod.mk.inj (hmiss.symm.trans ran)
    obtain ⟨rfl, rfl⟩ := Prod.mk.inj hrest
    exact ⟨.crlMiss url (gets k.config url) result', rfl, rfl, .crlMiss hlive hmiss⟩

/-- **The locations are walked through**, up to the first that gives a status. -/
theorem exists_walk {urls : List String} {failed : CrlCacheError}
    {result : Except CrlCacheError CrlStatus} {crls : CrlCache}
    (ran : checkEach o k.config c issuer now failed urls k.crls calls = (result, crls, after)) :
    ∃ looks, Look.Walk urls looks ∧
      Look.Series o c issuer now (k, calls) looks ({ k with crls }, after) := by
  induction urls generalizing k calls failed with
  | nil =>
    cases ran
    exact ⟨[], .exhausted rfl, .nil _⟩
  | cons url urls ih =>
    rw [checkEach] at ran
    rcases hat : checkAt o k.config url c issuer now k.crls calls with ⟨found, crls', middle⟩
    obtain ⟨look, hlocation, hverdict, hfirst⟩ := exists_look hat
    rw [hat] at ran
    cases found with
    | error e =>
      have hdeclines : look.isDefinite = false := by rw [Look.isDefinite, hverdict]; rfl
      refine Look.InTurn.exists_cons hlocation hfirst (fun hdefinite => ?_) fun _ => ih ran
      cases hdeclines.symm.trans hdefinite
    | ok status =>
      cases ran
      have hdefinite : look.isDefinite = true := by
        rw [Look.isDefinite, hverdict]
        cases status <;> rfl
      refine Look.InTurn.exists_cons hlocation hfirst (fun _ => rfl) fun hdeclines => ?_
      cases hdefinite.symm.trans hdeclines

end CrlCache

namespace OcspCache

/-- A look for an answer of a responder is a hit, or responders have their turns. -/
theorem exists_look (may : Askable k.config c issuer)
    {result : Except OcspCacheError Ocsp.Status} {ocsp : OcspCache}
    (ran : k.ocsp.check o k.config c issuer now calls = (result, ocsp, after)) :
    ∃ look : Look, look.source = .ocsp ∧
      look.verdict = .ofResult OcspCacheError.message .ofOcsp result ∧
      look.Occurs o c issuer now (k, calls) ({ k with ocsp }, after) := by
  cases hlive : k.ocsp.live? k.config.ocspLifetime now (.of c issuer) with
  | some kept =>
    rw [check_of_live? calls hlive] at ran
    cases ran
    exact ⟨.ocspHit kept.value, rfl, rfl, .ocspHit hlive⟩
  | none =>
    obtain ⟨urls, hurls⟩ := exists_mayAsk_iff.mpr may.urls
    obtain ⟨id, hid⟩ := Option.isSome_iff_exists.mp may.question
    obtain ⟨asked, result', ocsp', hturns, hmiss, -⟩ := check_turns hurls hid hlive
    obtain ⟨rfl, hrest⟩ := Prod.mk.inj (hmiss.symm.trans ran)
    obtain ⟨rfl, rfl⟩ := Prod.mk.inj hrest
    exact ⟨.ocspMiss (posts o k.config id calls asked) result', rfl, rfl,
      .ocspMiss hlive hurls hid hturns hmiss⟩

end OcspCache

namespace RevocationChecker

/-- A look that is definite decides. -/
theorem decide_definite {look : Look} (h : look.isDefinite = true) (source : RevocationSource)
    (reasons : List String) : ∃ decision, decide c source reasons look.verdict = .ok decision := by
  unfold Look.isDefinite at h
  cases hverdict : look.verdict with
  | good => exact ⟨_, rfl⟩
  | revoked => exact ⟨_, rfl⟩
  | inconclusive reason => simp [hverdict] at h

/-- Any other look adds a reason. -/
theorem decide_not_definite {look : Look} (h : look.isDefinite = false) (source : RevocationSource)
    (reasons : List String) :
    ∃ reasons', decide c source reasons look.verdict = .error reasons' := by
  unfold Look.isDefinite at h
  cases hverdict : look.verdict with
  | good => simp [hverdict] at h
  | revoked => simp [hverdict] at h
  | inconclusive reason => exact ⟨_, rfl⟩

variable {k₁ k₂ : RevocationChecker} {reasons reasons' : List String}

/-- The looks where neither the staple nor the responders decide. -/
theorem crls_series (hstaple : askStaple c issuer staple now k = (.error reasons, k₁))
    (hocsp : askOcsp o enabled c issuer now reasons k₁ calls = (.error reasons', k₂, after)) :
    ∃ looks, Look.Sources c [.localCrl] looks ∧ Look.Series o c issuer now (k₂, after) looks
      (k.check o enabled c issuer staple now calls).2 := by
  refine Look.InTurn.exists_cons rfl (.localCrls (k₂, after)) (fun hdefinite => ?_)
    fun hdeclines => ?_
  · obtain ⟨decision, hdecide⟩ := decide_definite (c := c) hdefinite .localCrl reasons'
    simp only [Look.verdict] at hdecide
    simp only [check, hstaple, hocsp, askLocal, hdecide]
  · obtain ⟨reasons'', hdecide⟩ := decide_not_definite (c := c) hdeclines .localCrl reasons'
    rcases hran : k₂.crls.check o k₂.config c issuer now after with ⟨result, crls, last⟩
    obtain ⟨looks, hwalk, hseries⟩ := CrlCache.exists_walk hran
    refine ⟨looks, .exhausted hwalk, ?_⟩
    simp only [Look.verdict] at hdecide
    simp only [check, hstaple, hocsp, askLocal, hdecide, askDistribution, hran]
    exact hseries

/-- The looks where the staple does not decide. -/
theorem ocsp_series (may : Askable k₁.config c issuer)
    (hstaple : askStaple c issuer staple now k = (.error reasons, k₁)) :
    ∃ looks, Look.Sources c ((if enabled then [.ocsp] else []) ++ [.localCrl]) looks ∧
      Look.Series o c issuer now (k₁, calls) looks
        (k.check o enabled c issuer staple now calls).2 := by
  cases enabled with
  | false => exact crls_series hstaple rfl
  | true =>
    rcases hran : k₁.ocsp.check o k₁.config c issuer now calls with ⟨result, ocsp, after⟩
    obtain ⟨look, hsource, hverdict, hoccurs⟩ := OcspCache.exists_look may hran
    refine Look.InTurn.exists_cons hsource hoccurs (fun hdefinite => ?_) fun hdeclines => ?_
    · obtain ⟨decision, hdecide⟩ := decide_definite (c := c) hdefinite .ocsp reasons
      rw [hverdict] at hdecide
      simp only [check, hstaple, askOcsp, if_true, hran, hdecide]
    · obtain ⟨reasons', hdecide⟩ := decide_not_definite (c := c) hdeclines .ocsp reasons
      rw [hverdict] at hdecide
      have hask : askOcsp o true c issuer now reasons k₁ calls =
          (.error reasons', { k₁ with ocsp }, after) := by
        simp only [askOcsp, if_true, hran, hdecide]
      exact crls_series hstaple hask

/-- **A check is a series of looks** at the sources, in their order. -/
theorem check_series (o : Outside) (enabled : Bool) (staple : Option Bytes) (now : Nat)
    (calls : Calls) (may : Askable k.config c issuer) :
    ∃ looks, Look.ForCheck enabled c staple looks ∧
      Look.Series o c issuer now (k, calls) looks
        (k.check o enabled c issuer staple now calls).2 := by
  unfold Look.ForCheck Look.beforeDistribution
  by_cases hnone : staple.getD [] = []
  · rw [if_pos hnone]
    exact ocsp_series may (askStaple_of_absent c issuer staple now k hnone)
  · cases staple with
    | none => exact absurd rfl hnone
    | some response =>
      have hpresent : response ≠ [] := hnone
      rw [if_neg hnone]
      refine Look.InTurn.exists_cons rfl (.staple response) (fun hdefinite => ?_)
        fun hdeclines => ?_
      · obtain ⟨decision, hdecide⟩ := decide_definite (c := c) hdefinite .stapledOcsp []
        simp only [Look.verdict] at hdecide
        simp only [check, askStaple_present hpresent, hdecide]
      · obtain ⟨reasons, hdecide⟩ := decide_not_definite (c := c) hdeclines .stapledOcsp []
        simp only [Look.verdict] at hdecide
        exact ocsp_series may ((askStaple_present hpresent k).trans (by rw [hdecide]))

end RevocationChecker

/-- A cleanup is no look-up, and what is kept does not grow. -/
theorem RevocationChecker.cleanup_books (now : Nat) (k : RevocationChecker) (calls : Calls) :
    Books [] (k, calls) (k.cleanup now, calls) :=
  ⟨rfl, rfl, Cache.size_sweep_le _ _, rfl, rfl, Cache.size_sweep_le _ _, (List.append_nil _).symm⟩

end Checks

/-! ## 3. The looks of a run -/

namespace RevocationStep

/-- The looks of a run, check after check. -/
inductive Recorded (o : Outside) :
    RevocationState → List RevocationStep → List Look → RevocationState → Prop where
  | nil (state : RevocationState) : Recorded o state [] [] state
  | check {before last : RevocationState} {enabled : Bool} {c issuer : Certificate}
      {staple : Option Bytes} {now : Nat} {looks later : List Look} {steps : List RevocationStep}
      (order : Look.ForCheck enabled c staple looks)
      (series : Look.Series o c issuer now before looks
        (before.1.check o enabled c issuer staple now before.2).2)
      (rest : Recorded o (before.1.check o enabled c issuer staple now before.2).2 steps later
        last) :
      Recorded o before (.check enabled c issuer staple now :: steps) (looks ++ later) last
  | cleanup {before last : RevocationState} {now : Nat} {later : List Look}
      {steps : List RevocationStep}
      (rest : Recorded o (before.1.cleanup now, before.2) steps later last) :
      Recorded o before (.cleanup now :: steps) later last

variable {o : Outside} {steps : List RevocationStep} {state last : RevocationState}
  {looks : List Look}

/-- Responders can be asked about all certificates that are checked. -/
def AllAskable (cfg : RevocationConfig) (steps : List RevocationStep) : Prop :=
  ∀ enabled c issuer staple now, check enabled c issuer staple now ∈ steps → Askable cfg c issuer

/-- **The looks of a run add up.** -/
theorem Recorded.books (h : Recorded o state steps looks last) : Books looks state last := by
  induction h with
  | nil state => exact .refl state
  | check _ series _ ih => exact series.books.append ih
  | @cleanup before _ now _ _ _ ih => exact (before.1.cleanup_books now before.2).append ih

/-- **A run has its looks**, and they lead to where it ends. -/
theorem run_recorded (state : RevocationState) (askable : AllAskable state.1.config steps) :
    ∃ looks, Recorded o state steps looks (run o state steps) := by
  induction steps generalizing state with
  | nil => exact ⟨[], .nil state⟩
  | cons step steps ih =>
    have hrest : AllAskable state.1.config steps :=
      fun enabled c issuer staple now hmem => askable _ _ _ _ _ (List.mem_cons_of_mem _ hmem)
    cases step with
    | check enabled c issuer staple now =>
      obtain ⟨looks, horder, hseries⟩ := RevocationChecker.check_series o enabled staple now state.2
        (askable _ _ _ _ _ List.mem_cons_self)
      have hconfig := hseries.config
      obtain ⟨later, hlater⟩ := ih _ (hconfig ▸ hrest)
      exact ⟨looks ++ later, .check horder hseries hlater⟩
    | cleanup now =>
      obtain ⟨later, hlater⟩ := ih (state.1.cleanup now, state.2) hrest
      exact ⟨later, .cleanup hlater⟩

/-- **Every look is counted once, and the looks of a run account for all that it leaves**: for its
counts, its calls and the growth of what it keeps. -/
theorem run_books (o : Outside) (k : RevocationChecker) (calls : Calls)
    (steps : List RevocationStep) (askable : AllAskable k.config steps) :
    (∀ c issuer now before look after, Look.Occurs o c issuer now before look after →
      Books [look] before after) ∧
    ∃ looks, Recorded o (k, calls) steps looks (run o (k, calls) steps) ∧
      Books looks (k, calls) (run o (k, calls) steps) := by
  obtain ⟨looks, hrecorded⟩ := run_recorded (o := o) (k, calls) askable
  exact ⟨fun _ _ _ _ _ _ hoccurs => hoccurs.books, looks, hrecorded, hrecorded.books⟩

open AnswerSample in
/-- Responders are asked in the first check; then what is expired is dropped, and a peer presents an
answer. -/
theorem asked_and_presented_book :
    let c := pointing ["ldap:first", "ldap:second"]
    let steps : List RevocationStep :=
      [.check true c root none now, .cleanup now, .check true c root (some (octets good)) now]
    AllAskable fresh.config steps ∧
      ∃ looks, Recorded onlySecond (fresh, []) steps looks (run onlySecond (fresh, []) steps) ∧
        Books looks (fresh, []) (run onlySecond (fresh, []) steps) := by
  intro c steps
  have hc : Askable fresh.config c root := by
    refine ⟨fun _ text hmem => ?_, rfl⟩
    rcases List.mem_cons.mp hmem with rfl | hmem
    · exact ⟨first, rfl⟩
    · exact ⟨second, List.mem_singleton.mp hmem ▸ rfl⟩
  have askable : AllAskable fresh.config steps := by
    intro enabled c' issuer staple now' hmem
    simp only [steps, List.mem_cons, List.not_mem_nil, check.injEq, reduceCtorEq, or_false,
      false_or] at hmem
    rcases hmem with ⟨-, rfl, rfl, -⟩ | ⟨-, rfl, rfl, -⟩ <;> exact hc
  exact ⟨askable, (run_books onlySecond fresh [] steps askable).2⟩

end RevocationStep

end PeerTrust
