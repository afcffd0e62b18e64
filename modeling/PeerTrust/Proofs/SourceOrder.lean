import Mathlib.Data.List.Forall2
import PeerTrust.Proofs.Calls
import PeerTrust.Proofs.OcspAcceptance

/-!
# The order of the sources

What a check of revocation comes to, said without the nesting of its steps:

* `consulted` is the order in which sources are asked;
* `Says` is when a source is definite and what it says then, `Declines` is when it is not and the
  reason that it gives; `says_or_declines`, `not_definite_of_declines`: always one of them;
* `Leaves` is the state after the source that decides;
* `Course` puts these together: the first definite source decides, or else all reasons are given;
* `check_iff_course`: that is what a check does, and all it does;
* `check_follows_order` adds what sources after the deciding one leave untouched, and what all of
  it has to do with OCSP where that is not enabled.
-/

namespace PeerTrust

/-! ## 1. Definite statuses -/

/-- The status of an OCSP answer that says the same as a CRL. -/
def CrlStatus.asOcsp : CrlStatus → Ocsp.Status
  | valid => .good
  | revoked => .revoked

/-- What becomes of a certificate by the word of a source. -/
def CrlStatus.decision (c : Certificate) (source : RevocationSource) :
    CrlStatus → Except ValidationFailure RevocationSource
  | valid => .ok source
  | revoked => .error (.revoked c.displayName source)

/-- Why a responder decides nothing: it gave no answer that holds, or does not know. -/
def OcspDeclines {ε : Type} (message : ε → String) (r : Except ε Ocsp.Status) (reason : String) :
    Prop :=
  (∃ e, r = .error e ∧ reason = message e) ∨
    (r = .ok .unknown ∧ reason = "responder does not know the certificate")

namespace Verdict

/-- A verdict is that of a definite status, or gives a reason. -/
theorem ofCrl_or_inconclusive (v : Verdict) :
    (∃ s, v = ofCrl s) ∨ ∃ reason, v = inconclusive reason := by
  cases v with
  | good => exact .inl ⟨.valid, rfl⟩
  | revoked => exact .inl ⟨.revoked, rfl⟩
  | inconclusive reason => exact .inr ⟨reason, rfl⟩

section Results

variable {ε : Type} {message : ε → String} {s : CrlStatus} {reason : String}

theorem ofResult_ofOcsp_eq_ofCrl_iff {r : Except ε Ocsp.Status} :
    ofResult message ofOcsp r = ofCrl s ↔ r = .ok s.asOcsp := by
  rcases r with e | status
  · cases s <;> simp [ofResult, ofCrl]
  · cases status <;> cases s <;> simp [ofResult, ofOcsp, ofCrl, CrlStatus.asOcsp]

theorem ofResult_ofOcsp_eq_inconclusive_iff {r : Except ε Ocsp.Status} :
    ofResult message ofOcsp r = inconclusive reason ↔ OcspDeclines message r reason := by
  rcases r with e | status
  · simp [ofResult, OcspDeclines, eq_comm]
  · cases status <;> simp [ofResult, ofOcsp, OcspDeclines, eq_comm]

theorem ofResult_ofCrl_eq_ofCrl_iff {r : Except ε CrlStatus} :
    ofResult message ofCrl r = ofCrl s ↔ r = .ok s := by
  rcases r with e | status
  · cases s <;> simp [ofResult, ofCrl]
  · cases status <;> cases s <;> simp [ofResult, ofCrl]

theorem ofResult_ofCrl_eq_inconclusive_iff {r : Except ε CrlStatus} :
    ofResult message ofCrl r = inconclusive reason ↔ ∃ e, r = .error e ∧ reason = message e := by
  rcases r with e | status
  · simp [ofResult, eq_comm]
  · cases status <;> simp [ofResult, ofCrl]

theorem ofLocal_eq_ofCrl_iff {r : Option (Except CrlError CrlStatus)} :
    ofLocal r = ofCrl s ↔ r = some (.ok s) := by
  cases r with
  | none => cases s <;> simp [ofLocal, ofCrl]
  | some r => simp [ofLocal, ofResult_ofCrl_eq_ofCrl_iff]

theorem ofLocal_eq_inconclusive_iff {r : Option (Except CrlError CrlStatus)} :
    ofLocal r = inconclusive reason ↔
      (r = none ∧ reason = "none issued by the certificate's issuer") ∨
        ∃ e, r = some (.error e) ∧ reason = s!"CRL validation failed: {e.message}" := by
  cases r with
  | none => simp [ofLocal, eq_comm]
  | some r => simp [ofLocal, ofResult_ofCrl_eq_inconclusive_iff]

end Results

end Verdict

namespace RevocationChecker

theorem decide_ofCrl (c : Certificate) (source : RevocationSource) (reasons : List String)
    (s : CrlStatus) : decide c source reasons (.ofCrl s) = .ok (s.decision c source) := by
  cases s <;> rfl

theorem decide_inconclusive (c : Certificate) (source : RevocationSource) (reasons : List String)
    (reason : String) :
    decide c source reasons (.inconclusive reason) =
      .error (reasons ++ [s!"{source.name}: {reason}"]) := rfl

/-! ## 2. The sources -/

/-- The sources that are asked, in their order; a staple that is empty is none. -/
def consulted (staple : Option Bytes) : List RevocationSource :=
  if staple.getD [] = [] then [.ocsp, .localCrl, .distributionPoint]
  else [.stapledOcsp, .ocsp, .localCrl, .distributionPoint]

section Sources

variable (o : Outside) (enabled : Bool) (c issuer : Certificate) (staple : Option Bytes)
  (now : Nat) (k : RevocationChecker) (calls : Calls)

/-- What a staple proves. -/
def stapled : Except Ocsp.Error Ocsp.Answer :=
  Ocsp.evaluate (staple.getD []) c issuer none now

/-- The state once responders were asked, where that is enabled. -/
def afterOcsp : RevocationState :=
  if enabled then
    ({ k with ocsp := (k.ocsp.check o k.config c issuer now calls).2.1 },
      (k.ocsp.check o k.config c issuer now calls).2.2)
  else (k, calls)

/-- What distribution points have to say in that state. -/
def fetched : Except CrlCacheError CrlStatus × CrlCache × Calls :=
  k.crls.check o k.config c issuer now (afterOcsp o enabled c issuer now k calls).2

/-- The state once distribution points were asked, too. -/
def afterFetch : RevocationState :=
  ({ (afterOcsp o enabled c issuer now k calls).1 with
      crls := (fetched o enabled c issuer now k calls).2.1 },
    (fetched o enabled c issuer now k calls).2.2)

/-- A source is definite: it says that the certificate is good, or that it is revoked. -/
def Says : RevocationSource → CrlStatus → Prop
  | .stapledOcsp, s => ∃ a, stapled c issuer staple now = .ok a ∧ a.status = s.asOcsp
  | .ocsp, s =>
    enabled = true ∧ (k.ocsp.check o k.config c issuer now calls).1 = .ok s.asOcsp
  | .localCrl, s => k.localCrls.check c issuer now = some (.ok s)
  | .distributionPoint, s => (fetched o enabled c issuer now k calls).1 = .ok s

/-- A source is not definite: it fails, it does not know, or it has nothing on the certificate. -/
def Declines : RevocationSource → String → Prop
  | .stapledOcsp, reason =>
    OcspDeclines Ocsp.Error.message ((stapled c issuer staple now).map (·.status)) reason
  | .ocsp, reason =>
    (enabled = false ∧ reason = "revocation checking is not enabled") ∨
      enabled = true ∧ OcspDeclines OcspCacheError.message
        (k.ocsp.check o k.config c issuer now calls).1 reason
  | .localCrl, reason =>
    (k.localCrls.check c issuer now = none ∧
        reason = "none issued by the certificate's issuer") ∨
      ∃ e, k.localCrls.check c issuer now = some (.error e) ∧
        reason = s!"CRL validation failed: {e.message}"
  | .distributionPoint, reason =>
    ∃ e, (fetched o enabled c issuer now k calls).1 = .error e ∧ reason = e.message

/-- The state after the source that decides. -/
def Leaves : RevocationSource → RevocationState → Prop
  | .stapledOcsp, after => ∃ a, stapled c issuer staple now = .ok a ∧
    after = ({ k with ocsp := k.ocsp.record k.config c issuer now a }, calls)
  | .ocsp, after | .localCrl, after => after = afterOcsp o enabled c issuer now k calls
  | .distributionPoint, after => after = afterFetch o enabled c issuer now k calls

/-- A source is definite. -/
def Definite (source : RevocationSource) : Prop :=
  ∃ s, Says o enabled c issuer staple now k calls source s

/-- The reasons of sources, each with the name of its source. -/
def worded (sources : List RevocationSource) (reasons : List String) : List String :=
  List.zipWith (fun source reason => s!"{source.name}: {reason}") sources reasons

/-- What a check comes to: the first definite source decides, and what comes after it is not asked;
where none is definite, all of them gave a reason. -/
inductive Course : Except ValidationFailure RevocationSource × RevocationState → Prop where
  | decided {source : RevocationSource} {s : CrlStatus} {after : RevocationState}
      (first : IsFirst (Definite o enabled c issuer staple now k calls) (consulted staple) source)
      (word : Says o enabled c issuer staple now k calls source s)
      (leaves : Leaves o enabled c issuer staple now k calls source after) :
      Course (s.decision c source, after)
  | undetermined {reasons : List String}
      (declined : List.Forall₂ (Declines o enabled c issuer staple now k calls)
        (consulted staple) reasons) :
      Course (.error (.undetermined c.displayName
          ("; ".intercalate (worded (consulted staple) reasons))),
        afterFetch o enabled c issuer now k calls)

end Sources

/-! ## 3. A source is definite or gives a reason -/

section Exclusive

variable {o : Outside} {enabled : Bool} {c issuer : Certificate} {staple : Option Bytes}
  {now : Nat} {k : RevocationChecker} {calls : Calls} {source : RevocationSource}
  {s s' : CrlStatus} {reason reason' : String} {after after' : RevocationState}

/-- The verdict of a source. -/
def verdictOf (o : Outside) (enabled : Bool) (c issuer : Certificate) (staple : Option Bytes)
    (now : Nat) (k : RevocationChecker) (calls : Calls) : RevocationSource → Verdict
  | .stapledOcsp =>
    .ofResult Ocsp.Error.message .ofOcsp ((stapled c issuer staple now).map (·.status))
  | .ocsp =>
    if enabled then
      .ofResult OcspCacheError.message .ofOcsp (k.ocsp.check o k.config c issuer now calls).1
    else .inconclusive "revocation checking is not enabled"
  | .localCrl => .ofLocal (k.localCrls.check c issuer now)
  | .distributionPoint =>
    .ofResult CrlCacheError.message .ofCrl (fetched o enabled c issuer now k calls).1

theorem says_iff : Says o enabled c issuer staple now k calls source s ↔
    verdictOf o enabled c issuer staple now k calls source = .ofCrl s := by
  cases source with
  | stapledOcsp =>
    simp only [Says, verdictOf, Verdict.ofResult_ofOcsp_eq_ofCrl_iff]
    cases stapled c issuer staple now <;> simp [Except.map]
  | ocsp =>
    cases enabled with
    | true => simp [Says, verdictOf, Verdict.ofResult_ofOcsp_eq_ofCrl_iff]
    | false => cases s <;> simp [Says, verdictOf, Verdict.ofCrl]
  | localCrl => exact Verdict.ofLocal_eq_ofCrl_iff.symm
  | distributionPoint => exact Verdict.ofResult_ofCrl_eq_ofCrl_iff.symm

theorem declines_iff : Declines o enabled c issuer staple now k calls source reason ↔
    verdictOf o enabled c issuer staple now k calls source = .inconclusive reason := by
  cases source with
  | stapledOcsp => exact Verdict.ofResult_ofOcsp_eq_inconclusive_iff.symm
  | ocsp =>
    cases enabled with
    | true => simp [Declines, verdictOf, Verdict.ofResult_ofOcsp_eq_inconclusive_iff]
    | false => simp [Declines, verdictOf, eq_comm]
  | localCrl => exact Verdict.ofLocal_eq_inconclusive_iff.symm
  | distributionPoint => exact Verdict.ofResult_ofCrl_eq_inconclusive_iff.symm

theorem says_or_declines (o : Outside) (enabled : Bool) (c issuer : Certificate)
    (staple : Option Bytes) (now : Nat) (k : RevocationChecker) (calls : Calls)
    (source : RevocationSource) :
    (∃ s, Says o enabled c issuer staple now k calls source s) ∨
      ∃ reason, Declines o enabled c issuer staple now k calls source reason := by
  simp only [says_iff, declines_iff]
  exact Verdict.ofCrl_or_inconclusive _

theorem not_definite_of_declines
    (h : Declines o enabled c issuer staple now k calls source reason) :
    ¬ Definite o enabled c issuer staple now k calls source := by
  intro h
  obtain ⟨s, hs⟩ := h
  have := (declines_iff.mp h).symm.trans (says_iff.mp hs)
  cases s <;> cases this

theorem says_unique (h : Says o enabled c issuer staple now k calls source s)
    (h' : Says o enabled c issuer staple now k calls source s') : s = s' := by
  have := (says_iff.mp h).symm.trans (says_iff.mp h')
  cases s <;> cases s' <;> simp_all [Verdict.ofCrl]

theorem declines_unique (h : Declines o enabled c issuer staple now k calls source reason)
    (h' : Declines o enabled c issuer staple now k calls source reason') : reason = reason' :=
  Verdict.inconclusive.inj ((declines_iff.mp h).symm.trans (declines_iff.mp h'))

theorem leaves_unique (h : Leaves o enabled c issuer staple now k calls source after)
    (h' : Leaves o enabled c issuer staple now k calls source after') : after = after' := by
  cases source with
  | stapledOcsp =>
    obtain ⟨a, ha, rfl⟩ := h
    obtain ⟨a', ha', rfl⟩ := h'
    obtain rfl : a = a' := Except.ok.inj (ha.symm.trans ha')
    rfl
  | ocsp => exact h.trans h'.symm
  | localCrl => exact h.trans h'.symm
  | distributionPoint => exact h.trans h'.symm

end Exclusive

/-! ## 4. What a check does -/

section Steps

variable (o : Outside) (enabled : Bool) (c issuer : Certificate) (staple : Option Bytes)
  (now : Nat) (k : RevocationChecker) (calls : Calls)

@[simp] theorem afterOcsp_config :
    (afterOcsp o enabled c issuer now k calls).1.config = k.config := by
  cases enabled <;> rfl

@[simp] theorem afterOcsp_localCrls :
    (afterOcsp o enabled c issuer now k calls).1.localCrls = k.localCrls := by
  cases enabled <;> rfl

@[simp] theorem afterOcsp_crls : (afterOcsp o enabled c issuer now k calls).1.crls = k.crls := by
  cases enabled <;> rfl

theorem askStaple_of_absent (h : staple.getD [] = []) :
    askStaple c issuer staple now k = (.error [], k) := by
  cases staple with
  | none => rfl
  | some response =>
    obtain rfl : response = [] := h
    rfl

variable {staple k calls} in
theorem askStaple_eq {s : CrlStatus} (hp : staple.getD [] ≠ [])
    (h : Says o enabled c issuer staple now k calls .stapledOcsp s) :
    ∃ after, Leaves o enabled c issuer staple now k calls .stapledOcsp after ∧
      after.2 = calls ∧
      askStaple c issuer staple now k = (.ok (s.decision c .stapledOcsp), after.1) := by
  cases staple with
  | none => exact absurd rfl hp
  | some response =>
    have hp' : response ≠ [] := hp
    obtain ⟨a, ha, hs⟩ := h
    have he : Ocsp.evaluate response c issuer none now = .ok a := ha
    refine ⟨_, ⟨a, ha, rfl⟩, rfl, ?_⟩
    have hverdict : Verdict.ofResult Ocsp.Error.message .ofOcsp (.ok a.status) = .ofCrl s := by
      rw [Verdict.ofResult_ofOcsp_eq_ofCrl_iff, hs]
    simp only [askStaple, Option.filter, hp', ne_eq, not_false_eq_true, decide_true, if_true,
      OcspCache.takeStapled, he, OcspCache.takeAnswer, hverdict, decide_ofCrl]

variable {staple k calls} in
/-- A staple that decides nothing leaves no trace but its reason. -/
theorem askStaple_of_declines {reason : String} (hp : staple.getD [] ≠ [])
    (h : Declines o enabled c issuer staple now k calls .stapledOcsp reason) :
    askStaple c issuer staple now k = (.error (worded [.stapledOcsp] [reason]), k) := by
  cases staple with
  | none => exact absurd rfl hp
  | some response =>
    have hp' : response ≠ [] := hp
    have hverdict := Verdict.ofResult_ofOcsp_eq_inconclusive_iff.mpr h
    simp only [askStaple, Option.filter, hp', ne_eq, not_false_eq_true, decide_true, if_true,
      OcspCache.takeStapled]
    simp only [stapled, Option.getD_some] at hverdict
    cases he : Ocsp.evaluate response c issuer none now with
    | error e =>
      rw [he] at hverdict
      simp only [Except.map] at hverdict
      simp only [OcspCache.takeAnswer, hverdict]
      rfl
    | ok a =>
      rw [he] at hverdict
      simp only [Except.map] at hverdict
      have hunknown : a.status = .unknown := by
        cases hs : a.status <;> simp_all [Verdict.ofResult, Verdict.ofOcsp]
      simp only [OcspCache.takeAnswer, OcspCache.record, hunknown, if_true]
      rw [hunknown] at hverdict
      simp only [hverdict]
      rfl

theorem askOcsp_eq (reasons : List String) :
    askOcsp o enabled c issuer now reasons k calls =
      (decide c .ocsp reasons (verdictOf o enabled c issuer staple now k calls .ocsp),
        afterOcsp o enabled c issuer now k calls) := by
  cases enabled <;> rfl

theorem askLocal_eq (reasons : List String) :
    askLocal c issuer now reasons (afterOcsp o enabled c issuer now k calls).1 =
      decide c .localCrl reasons (verdictOf o enabled c issuer staple now k calls .localCrl) := by
  simp only [askLocal, afterOcsp_localCrls, verdictOf]

theorem askDistribution_eq (reasons : List String) :
    askDistribution o c issuer now reasons (afterOcsp o enabled c issuer now k calls).1
        (afterOcsp o enabled c issuer now k calls).2 =
      (decide c .distributionPoint reasons
          (verdictOf o enabled c issuer staple now k calls .distributionPoint),
        afterFetch o enabled c issuer now k calls) := by
  unfold askDistribution
  simp only [afterFetch, fetched, verdictOf, afterOcsp_crls, afterOcsp_config]

variable {o enabled c issuer staple now k calls}

/-- One more source that declines adds its reason behind those that are there. -/
theorem declined_concat {sources : List RevocationSource} {source : RevocationSource}
    {reasons : List String} {reason : String}
    (hall : List.Forall₂ (Declines o enabled c issuer staple now k calls) sources reasons)
    (hone : Declines o enabled c issuer staple now k calls source reason) :
    List.Forall₂ (Declines o enabled c issuer staple now k calls) (sources ++ [source])
        (reasons ++ [reason]) ∧
      worded sources reasons ++ [s!"{source.name}: {reason}"] =
        worded (sources ++ [source]) (reasons ++ [reason]) := by
  refine ⟨List.rel_append hall (.cons hone .nil), ?_⟩
  rw [worded, worded, List.zipWith_append hall.length_eq]
  rfl

theorem not_definite_of_mem {sources : List RevocationSource} {reasons : List String}
    (hall : List.Forall₂ (Declines o enabled c issuer staple now k calls) sources reasons)
    {source : RevocationSource} (hmem : source ∈ sources) :
    ¬ Definite o enabled c issuer staple now k calls source := by
  induction hall with
  | nil => cases hmem
  | cons hfirst _ ih =>
    rcases List.mem_cons.mp hmem with rfl | hmem
    · exact not_definite_of_declines hfirst
    · exact ih hmem

/-- After sources that decline, one that is definite is the first. -/
theorem isFirst_of_declined {before after : List RevocationSource} {source : RevocationSource}
    {reasons : List String} {s : CrlStatus} (order : consulted staple = before ++ source :: after)
    (hbefore : List.Forall₂ (Declines o enabled c issuer staple now k calls) before reasons)
    (hs : Says o enabled c issuer staple now k calls source s) :
    IsFirst (Definite o enabled c issuer staple now k calls) (consulted staple) source :=
  ⟨before, after, order, ⟨s, hs⟩, fun _ => not_definite_of_mem hbefore⟩

variable (o enabled c issuer staple now k calls)

theorem askStaple_cases :
    (∃ s after, IsFirst (Definite o enabled c issuer staple now k calls) (consulted staple)
        .stapledOcsp ∧
      Says o enabled c issuer staple now k calls .stapledOcsp s ∧
      Leaves o enabled c issuer staple now k calls .stapledOcsp after ∧ after.2 = calls ∧
      askStaple c issuer staple now k = (.ok (s.decision c .stapledOcsp), after.1)) ∨
    ∃ before reasons, consulted staple = before ++ [.ocsp, .localCrl, .distributionPoint] ∧
      List.Forall₂ (Declines o enabled c issuer staple now k calls) before reasons ∧
      askStaple c issuer staple now k = (.error (worded before reasons), k) := by
  by_cases hp : staple.getD [] = []
  · exact .inr ⟨[], [], by simp [consulted, hp], .nil, askStaple_of_absent c issuer staple now k hp⟩
  · have order : consulted staple = [.stapledOcsp, .ocsp, .localCrl, .distributionPoint] := by
      simp [consulted, hp]
    rcases says_or_declines o enabled c issuer staple now k calls .stapledOcsp with
      ⟨s, hs⟩ | ⟨reason, hd⟩
    · obtain ⟨after, hleaves, hcalls, hask⟩ := askStaple_eq o enabled c issuer now hp hs
      have first := isFirst_of_declined (order : consulted staple = [] ++ _ :: _) .nil hs
      exact .inl ⟨s, after, first, hs, hleaves, hcalls, hask⟩
    · exact .inr ⟨[.stapledOcsp], [reason], order, .cons hd .nil,
        askStaple_of_declines o enabled c issuer now hp hd⟩

/-- **A check takes its course.** -/
theorem check_course : Course o enabled c issuer staple now k calls
    (k.check o enabled c issuer staple now calls) := by
  unfold RevocationChecker.check
  rcases askStaple_cases o enabled c issuer staple now k calls with
    ⟨s, after, first, hs, hleaves, hcalls, hask⟩ | ⟨before, reasons, order, hbefore, hask⟩
  · obtain ⟨k', calls'⟩ := after
    obtain rfl : calls' = calls := hcalls
    rw [hask]
    exact .decided first hs hleaves
  rw [hask]
  simp only
  rw [askOcsp_eq o enabled c issuer staple now k calls]
  rcases says_or_declines o enabled c issuer staple now k calls .ocsp with ⟨s, hs⟩ | ⟨r₁, h₁⟩
  · rw [says_iff.mp hs, decide_ofCrl]
    exact .decided (isFirst_of_declined order hbefore hs) hs rfl
  obtain ⟨hocsp, hwords⟩ := declined_concat hbefore h₁
  rw [declines_iff.mp h₁, decide_inconclusive, hwords]
  simp only
  rw [askLocal_eq o enabled c issuer staple now k calls]
  rcases says_or_declines o enabled c issuer staple now k calls .localCrl with ⟨s, hs⟩ | ⟨r₂, h₂⟩
  · rw [says_iff.mp hs, decide_ofCrl]
    exact .decided (isFirst_of_declined (by simpa using order) hocsp hs) hs rfl
  obtain ⟨hlocal, hwords⟩ := declined_concat hocsp h₂
  rw [declines_iff.mp h₂, decide_inconclusive, hwords]
  simp only
  rw [askDistribution_eq o enabled c issuer staple now k calls]
  rcases says_or_declines o enabled c issuer staple now k calls .distributionPoint with
    ⟨s, hs⟩ | ⟨r₃, h₃⟩
  · rw [says_iff.mp hs, decide_ofCrl]
    exact .decided (isFirst_of_declined (by simpa using order) hlocal hs) hs rfl
  obtain ⟨hall, hwords⟩ := declined_concat hlocal h₃
  rw [declines_iff.mp h₃, decide_inconclusive, hwords]
  have hsources : before ++ [.ocsp] ++ [.localCrl] ++ [.distributionPoint] = consulted staple := by
    simp [order]
  rw [hsources] at hall ⊢
  exact .undetermined hall

variable {o enabled c issuer staple now k calls}

theorem declined_unique {sources : List RevocationSource} {reasons reasons' : List String}
    (h : List.Forall₂ (Declines o enabled c issuer staple now k calls) sources reasons)
    (h' : List.Forall₂ (Declines o enabled c issuer staple now k calls) sources reasons') :
    reasons = reasons' := by
  induction h generalizing reasons' with
  | nil => cases h'; rfl
  | cons hfirst _ ih =>
    cases h' with
    | cons hfirst' hrest' => rw [declines_unique hfirst hfirst', ih hrest']

theorem not_isFirst_of_declined {reasons : List String}
    (h : List.Forall₂ (Declines o enabled c issuer staple now k calls) (consulted staple) reasons)
    {source : RevocationSource} :
    ¬ IsFirst (Definite o enabled c issuer staple now k calls) (consulted staple) source := by
  intro h
  obtain ⟨before, after, order, hdefinite, -⟩ := h
  exact not_definite_of_mem h (by simp [order]) hdefinite

/-- The state at the end of a course is the one after some source. -/
theorem Course.leaves {r : Except ValidationFailure RevocationSource × RevocationState}
    (h : Course o enabled c issuer staple now k calls r) :
    ∃ source, Leaves o enabled c issuer staple now k calls source r.2 := by
  cases h with
  | decided _ _ leaves => exact ⟨_, leaves⟩
  | undetermined _ => exact ⟨.distributionPoint, rfl⟩

/-- A course has one end. -/
theorem Course.unique {r r' : Except ValidationFailure RevocationSource × RevocationState}
    (h : Course o enabled c issuer staple now k calls r)
    (h' : Course o enabled c issuer staple now k calls r') : r = r' := by
  cases h with
  | decided first word leaves =>
    cases h' with
    | decided first' word' leaves' =>
      obtain rfl := first.unique first'
      rw [says_unique word word', leaves_unique leaves leaves']
    | undetermined declined => exact absurd first (not_isFirst_of_declined declined)
  | undetermined declined =>
    cases h' with
    | decided first _ _ => exact absurd first (not_isFirst_of_declined declined)
    | undetermined declined' => rw [declined_unique declined declined']

theorem check_iff_course {r : Except ValidationFailure RevocationSource × RevocationState} :
    k.check o enabled c issuer staple now calls = r ↔
      Course o enabled c issuer staple now k calls r :=
  ⟨fun h => h ▸ check_course o enabled c issuer staple now k calls,
    fun h => (check_course o enabled c issuer staple now k calls).unique h⟩

/-- CRLs at hand decide where there is no staple and responders decline. -/
theorem check_of_localCrl {s : CrlStatus} {reason : String}
    (declined : Declines o enabled c issuer none now k calls .ocsp reason)
    (word : k.localCrls.check c issuer now = some (.ok s)) :
    k.check o enabled c issuer none now calls =
      (s.decision c .localCrl, afterOcsp o enabled c issuer now k calls) := by
  have order : consulted none = [.ocsp] ++ .localCrl :: [.distributionPoint] := rfl
  have first := isFirst_of_declined order (.cons declined .nil) word
  exact check_iff_course.mpr (.decided first word rfl)

end Steps

/-! ## 5. What is left alone -/

/-- The source that decided, if one did. -/
def decidingSource : Except ValidationFailure RevocationSource → Option RevocationSource
  | .ok source => some source
  | .error (.revoked _ source) => some source
  | .error _ => none

theorem decidingSource_decision (c : Certificate) (source : RevocationSource) (s : CrlStatus) :
    decidingSource (s.decision c source) = some source := by
  cases s <;> rfl

section Rest

variable (o : Outside) (enabled : Bool) (c issuer : Certificate) (staple : Option Bytes)
  (now : Nat) (k : RevocationChecker) (calls : Calls)

theorem afterOcsp_calls :
    calls.ExtendedBy (OcspCache.Asks k.config c) (afterOcsp o enabled c issuer now k calls).2 := by
  cases enabled with
  | true => exact OcspCache.check_calls o k.config c issuer now k.ocsp calls
  | false => exact .refl _ calls

/-- What a check leaves alone of the sources that it does not come to. -/
structure LeavesRest (r : Except ValidationFailure RevocationSource × RevocationState) : Prop where
  /-- A staple decides without a call and without a look at a cache. -/
  afterStaple : decidingSource r.1 = some .stapledOcsp →
    r.2.2 = calls ∧ r.2.1.crls = k.crls ∧
      r.2.1.ocsp.hits = k.ocsp.hits ∧ r.2.1.ocsp.misses = k.ocsp.misses
  /-- Neither responders nor CRLs at hand decide with a download. -/
  beforeFetch : decidingSource r.1 = some .ocsp ∨ decidingSource r.1 = some .localCrl →
    r.2.1.crls = k.crls ∧ calls.ExtendedBy (OcspCache.Asks k.config c) r.2.2

theorem record_counters (cfg : RevocationConfig) (a : Ocsp.Answer) (cache : OcspCache) :
    (cache.record cfg c issuer now a).hits = cache.hits ∧
      (cache.record cfg c issuer now a).misses = cache.misses := by
  unfold OcspCache.record
  split
  · exact ⟨rfl, rfl⟩
  · unfold Cache.store
    simp only
    split <;> exact ⟨rfl, rfl⟩

variable {o enabled c issuer staple now k calls}

theorem Course.leavesRest {r : Except ValidationFailure RevocationSource × RevocationState}
    (h : Course o enabled c issuer staple now k calls r) : LeavesRest c k calls r := by
  cases h with
  | @decided source s after first word leaves =>
    constructor
    · simp only [decidingSource_decision, Option.some.injEq]
      rintro rfl
      obtain ⟨a, -, rfl⟩ := leaves
      exact ⟨rfl, rfl, record_counters c issuer now k.config a k.ocsp⟩
    · simp only [decidingSource_decision, Option.some.injEq]
      intro h
      rcases h with rfl | rfl
      all_goals
        obtain rfl : after = _ := leaves
        exact ⟨afterOcsp_crls o enabled c issuer now k calls,
          afterOcsp_calls o enabled c issuer now k calls⟩
  | undetermined declined => constructor <;> simp [decidingSource]

end Rest

/-! ## 6. Where OCSP is not enabled -/

section Disabled

variable {o : Outside} {c issuer : Certificate} {staple : Option Bytes} {now : Nat}
  {k : RevocationChecker} {calls : Calls} {source : RevocationSource}

/-- What the answers of responders that are kept have no part in. -/
theorem verdictOf_disabled (cache : OcspCache) :
    verdictOf o false c issuer staple now { k with ocsp := cache } calls =
      verdictOf o false c issuer staple now k calls := by
  funext source
  cases source <;> rfl

theorem says_disabled {cache : OcspCache} {s : CrlStatus} :
    Says o false c issuer staple now { k with ocsp := cache } calls source s ↔
      Says o false c issuer staple now k calls source s := by
  rw [says_iff, says_iff, verdictOf_disabled]

theorem declines_disabled {cache : OcspCache} {reason : String} :
    Declines o false c issuer staple now { k with ocsp := cache } calls source reason ↔
      Declines o false c issuer staple now k calls source reason := by
  rw [declines_iff, declines_iff, verdictOf_disabled]

theorem leaves_disabled (cache : OcspCache) {after : RevocationState}
    (h : Leaves o false c issuer staple now k calls source after) :
    ∃ after', Leaves o false c issuer staple now { k with ocsp := cache } calls source after' ∧
      after'.2 = after.2 ∧ after'.1.crls = after.1.crls := by
  cases source with
  | stapledOcsp =>
    obtain ⟨a, ha, rfl⟩ := h
    exact ⟨_, ⟨a, ha, rfl⟩, rfl, rfl⟩
  | ocsp | localCrl | distributionPoint =>
    obtain rfl : after = _ := h
    exact ⟨_, rfl, rfl, rfl⟩

/-- Without OCSP, a course is the same whatever answers of responders are kept. -/
theorem Course.disabled (cache : OcspCache)
    {r : Except ValidationFailure RevocationSource × RevocationState}
    (h : Course o false c issuer staple now k calls r) :
    ∃ r', Course o false c issuer staple now { k with ocsp := cache } calls r' ∧
      r'.1 = r.1 ∧ r'.2.2 = r.2.2 ∧ r'.2.1.crls = r.2.1.crls := by
  have hdefinite : Definite o false c issuer staple now { k with ocsp := cache } calls =
      Definite o false c issuer staple now k calls := by
    funext source
    exact propext (exists_congr fun s => says_disabled)
  cases h with
  | decided first word leaves =>
    obtain ⟨after', hleaves, hcalls, hcrls⟩ := leaves_disabled cache leaves
    exact ⟨_, .decided (hdefinite ▸ first) (says_disabled.mpr word) hleaves, rfl, hcalls, hcrls⟩
  | undetermined declined =>
    exact ⟨_, .undetermined (declined.imp fun _ _ => declines_disabled.mpr), rfl, rfl, rfl⟩

variable (o c issuer staple now k calls)

/-- A check without OCSP asks no responder, counts no look-up of its answers, and comes to the same
whatever answers are kept. -/
structure SparesOcsp (r : Except ValidationFailure RevocationSource × RevocationState) : Prop where
  counters : r.2.1.ocsp.hits = k.ocsp.hits ∧ r.2.1.ocsp.misses = k.ocsp.misses
  downloads : calls.ExtendedBy (CrlCache.Asks k.config c) r.2.2
  blind : ∀ (cache : OcspCache) (r' : Except ValidationFailure RevocationSource × RevocationState),
    RevocationChecker.check o false c issuer staple now { k with ocsp := cache } calls = r' →
      r'.1 = r.1 ∧ r'.2.2 = r.2.2 ∧ r'.2.1.crls = r.2.1.crls

variable {o c issuer staple now k calls}

theorem leaves_sparesOcsp {after : RevocationState}
    (h : Leaves o false c issuer staple now k calls source after) :
    (after.1.ocsp.hits = k.ocsp.hits ∧ after.1.ocsp.misses = k.ocsp.misses) ∧
      calls.ExtendedBy (CrlCache.Asks k.config c) after.2 := by
  cases source with
  | stapledOcsp =>
    obtain ⟨a, -, rfl⟩ := h
    exact ⟨record_counters c issuer now k.config a k.ocsp, .refl _ calls⟩
  | ocsp | localCrl =>
    obtain rfl : after = _ := h
    exact ⟨⟨rfl, rfl⟩, .refl _ calls⟩
  | distributionPoint =>
    obtain rfl : after = _ := h
    exact ⟨⟨rfl, rfl⟩, CrlCache.check_calls o k.config c issuer now k.crls calls⟩

theorem Course.sparesOcsp {r : Except ValidationFailure RevocationSource × RevocationState}
    (h : Course o false c issuer staple now k calls r) :
    SparesOcsp o c issuer staple now k calls r := by
  obtain ⟨source, hleaves⟩ := h.leaves
  refine ⟨(leaves_sparesOcsp hleaves).1, (leaves_sparesOcsp hleaves).2, fun cache r' hr' => ?_⟩
  obtain ⟨r₁, h₁, hsame⟩ := h.disabled cache
  obtain rfl : r₁ = r' := (check_iff_course.mpr h₁).symm.trans hr'
  exact hsame

end Disabled

/-- **The first definite source decides.** A check is exactly the course that the answers of the
sources prescribe, in their order: staple, responders where OCSP is enabled, CRLs at hand,
distribution points. A source behind the one that decides is not asked and keeps its cache and its
counts; where OCSP is not enabled, nothing of it is asked, counted or looked at. -/
theorem check_follows_order (o : Outside) (enabled : Bool) (c issuer : Certificate)
    (staple : Option Bytes) (now : Nat) (k : RevocationChecker) (calls : Calls) :
    (∀ r, k.check o enabled c issuer staple now calls = r ↔
      Course o enabled c issuer staple now k calls r) ∧
    LeavesRest c k calls (k.check o enabled c issuer staple now calls) ∧
    (enabled = false →
      SparesOcsp o c issuer staple now k calls (k.check o enabled c issuer staple now calls)) := by
  have hcourse := check_course o enabled c issuer staple now k calls
  refine ⟨fun r => check_iff_course, hcourse.leavesRest, ?_⟩
  rintro rfl
  exact hcourse.sparesOcsp

end RevocationChecker

end PeerTrust
