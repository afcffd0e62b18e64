import Mathlib.Data.List.Induction
import PeerTrust.Proofs.CacheContents
import PeerTrust.Proofs.CrlAcceptance
import PeerTrust.Proofs.SourceOrder

/-!
# Every verdict rests on evidence

A checker is used again and again, and what one check was told may decide a later one.

* `RevocationStep` is one use of a checker, `RevocationStep.run` a sequence of uses;
* `Heard` are the octets that reached it: presented by a peer, or replied by a server;
* `Ocsp.Proves` is what an answer of a responder proves;
* `Grounded` says that all that is kept was heard and proved: `Grounded.step`, `Grounded.run`;
* `Evidence` is what a verdict rests on: `check_rests_on_evidence`.
-/

namespace PeerTrust

/-! ## 1. Runs -/

/-- One use of a checker. -/
inductive RevocationStep where
  | check (enabled : Bool) (c issuer : Certificate) (staple : Option Bytes) (now : Nat)
  | cleanup (now : Nat)

namespace RevocationStep

/-- What a use leaves behind. -/
def apply (o : Outside) (state : RevocationState) : RevocationStep → RevocationState
  | check enabled c issuer staple now =>
    (state.1.check o enabled c issuer staple now state.2).2
  | cleanup now => (state.1.cleanup now, state.2)

/-- What a sequence of uses leaves behind. -/
def run (o : Outside) (state : RevocationState) (steps : List RevocationStep) : RevocationState :=
  steps.foldl (apply o) state

theorem run_concat (o : Outside) (state : RevocationState) (steps : List RevocationStep)
    (step : RevocationStep) : run o state (steps ++ [step]) = apply o (run o state steps) step := by
  simp [run]

end RevocationStep

/-- Octets that reached a checker in a run: a peer presented them, or a server replied with them. -/
def Heard (o : Outside) (start : Calls) (steps : List RevocationStep) (calls : Calls) (b : Bytes) :
    Prop :=
  (∃ enabled c issuer now, .check enabled c issuer (some b) now ∈ steps) ∨ o.Replied start calls b

theorem Heard.mono {o : Outside} {start : Calls} {steps steps' : List RevocationStep}
    {calls calls' : Calls} {b : Bytes} (h : Heard o start steps calls b) (hsteps : steps ⊆ steps')
    (hcalls : calls <+: calls') : Heard o start steps' calls' b := by
  rcases h with ⟨enabled, c, issuer, now, hmem⟩ | hreplied
  · exact .inl ⟨enabled, c, issuer, now, hsteps hmem⟩
  · exact .inr (hreplied.mono List.prefix_rfl hcalls)

/-! ## 2. Answers of responders -/

namespace Ocsp

/-- Octets prove the status of a certificate of an issuer at a time. -/
structure Proves (response : Bytes) (c issuer : Certificate) (nonce : Option Bytes) (now : Nat)
    (a : Answer) : Prop where
  accepted : evaluate response c issuer nonce now = .ok a
  /-- They are signed by the issuer, or by one whom the issuer certified for that. -/
  signed : ∃ r signer, Decodes response r ∧ VerifiesUnder r signer ∧
    (signer = issuer ∨ (signer.signsOcsp = true ∧ signer.IssuedBy issuer))

theorem proves_of_evaluate {response : Bytes} {c issuer : Certificate} {nonce : Option Bytes}
    {now : Nat} {a : Answer} (h : evaluate response c issuer nonce now = .ok a) :
    Proves response c issuer nonce now a := by
  obtain ⟨d, hd, -⟩ := evaluate_eq_ok.mp h
  obtain ⟨r, ⟨hdecodes, signer, hsigner, hverifies⟩, -⟩ := authenticate_eq_ok_iff.mp hd
  refine ⟨h, r, signer, hdecodes, hverifies, ?_⟩
  cases hsigner with
  | issuer _ => exact .inl rfl
  | delegate _ _ _ _ _ usage issued _ => exact .inr ⟨usage, issued⟩

end Ocsp

namespace OcspCache

variable {o : Outside} {cfg : RevocationConfig} {c issuer : Certificate} {now : Nat}
  {cache : OcspCache} {calls : Calls} {P : OcspKey → Kept Ocsp.Status → Prop}

theorem record_forall {a : Ocsp.Answer} (h : cache.Forall P)
    (hnew : a.status ≠ .unknown → P (.of c issuer) ⟨a.status, now, a.nextUpdate⟩) :
    (cache.record cfg c issuer now a).Forall P := by
  unfold record
  split
  · exact h
  · rename_i hdefinite
    exact h.store (hnew hdefinite) _ _ _

/-- What is kept after a check was kept before, or proved to it. -/
theorem check_forall (h : cache.Forall P)
    (hnew : ∀ response nonce a,
      o.Replied calls (check o cfg c issuer now cache calls).2.2 response →
      Ocsp.evaluate response c issuer (some nonce) now = .ok a → a.status ≠ .unknown →
        P (.of c issuer) ⟨a.status, now, a.nextUpdate⟩) :
    (check o cfg c issuer now cache calls).2.1.Forall P := by
  revert hnew
  simp only [check]
  split
  · exact fun _ => h.countHit
  · split
    · exact fun _ => h.countMiss
    · split
      · exact fun _ => h.countMiss
      · rename_i hquery
        intro hnew
        obtain ⟨response, nonce, hreplied, heval⟩ := queryEach_eq_ok hquery
        exact record_forall h.countMiss (hnew response nonce _ hreplied heval)

/-- What a check says was kept, or is proved to it. -/
theorem check_eq_ok {status : Ocsp.Status}
    (h : (check o cfg c issuer now cache calls).1 = .ok status) :
    (∃ kept, cache.live? cfg.ocspLifetime now (.of c issuer) = some kept ∧ kept.value = status) ∨
    ∃ response nonce a, o.Replied calls (check o cfg c issuer now cache calls).2.2 response ∧
      Ocsp.evaluate response c issuer (some nonce) now = .ok a ∧ a.status = status := by
  revert h
  simp only [check]
  split
  · rename_i kept hlive
    intro h
    exact .inl ⟨kept, hlive, Except.ok.inj h⟩
  · split
    · intro h
      cases h
    · split
      · intro h
        cases h
      · rename_i hquery
        intro h
        obtain ⟨response, nonce, hreplied, heval⟩ := queryEach_eq_ok hquery
        exact .inr ⟨response, nonce, _, hreplied, heval, Except.ok.inj h⟩

end OcspCache

/-! ## 3. CRLs -/

namespace CrlCache

variable {o : Outside} {cfg : RevocationConfig} {c issuer : Certificate} {now : Nat}
  {cache : CrlCache} {calls : Calls} {P : Crl → Prop}

/-- A result rests on CRLs with a property: no other is in the cache that it leaves, and it says
nothing that none of them attests. -/
structure RestsOn (P : Crl → Prop) (c issuer : Certificate) (now : Nat)
    (r : Except CrlCacheError CrlStatus × CrlCache × Calls) : Prop where
  kept : r.2.1.Forall fun _ kept => P kept.value
  attested : ∀ s, r.1 = .ok s → ∃ crl, P crl ∧ crl.Attests c issuer now s

theorem checkAt_restsOn {url : String} (h : cache.Forall fun _ kept => P kept.value)
    (hnew : ∀ content crl,
      o.Replied calls (checkAt o cfg url c issuer now cache calls).2.2 content →
      Crl.parse content = .ok crl → P crl) :
    RestsOn P c issuer now (checkAt o cfg url c issuer now cache calls) := by
  revert hnew
  simp only [checkAt]
  split
  · rename_i kept hlive
    refine fun _ => ⟨h.countHit, fun s hs => ⟨kept.value, (h.live? hlive).1, ?_⟩⟩
    exact attests_of_statusAt (mapError_eq_ok_iff.mp hs)
  · split
    · exact fun _ => ⟨h.countMiss, fun s hs => by cases hs⟩
    · rename_i crl calls' hdownload
      obtain ⟨content, hreplied, hparse⟩ := download_eq_ok hdownload
      split
      · exact fun _ => ⟨h.countMiss, fun s hs => by cases hs⟩
      · rename_i status hstatus
        intro hnew
        have hcrl : P crl := hnew content crl hreplied hparse
        refine ⟨h.countMiss.store hcrl _ _ _, fun s hs => ?_⟩
        cases hs
        exact ⟨crl, hcrl, attests_of_statusAt hstatus⟩

theorem checkEach_restsOn {urls : List String} {failed : CrlCacheError}
    (h : cache.Forall fun _ kept => P kept.value)
    (hnew : ∀ content crl,
      o.Replied calls (checkEach o cfg c issuer now failed urls cache calls).2.2 content →
      Crl.parse content = .ok crl → P crl) :
    RestsOn P c issuer now (checkEach o cfg c issuer now failed urls cache calls) := by
  induction urls generalizing failed cache calls with
  | nil => exact ⟨h, fun s hs => by cases hs⟩
  | cons url urls ih =>
    have hcalls : calls.ExtendedBy (fun _ => True)
        (checkAt o cfg url c issuer now cache calls).2.2 :=
      checkAt_calls o cfg c issuer now cache calls fun _ _ => trivial
    have hfirst := @checkAt_restsOn o cfg c issuer now cache calls P url h
    revert hnew
    unfold checkEach
    split
    · rename_i hat
      intro hnew
      rw [hat] at hfirst
      exact hfirst hnew
    · rename_i e cache' calls' hat
      intro hnew
      rw [hat] at hcalls hfirst
      -- the replies to the first location are among all replies
      have hrest : calls'.ExtendedBy (fun _ => True)
          (checkEach o cfg c issuer now e urls cache' calls').2.2 :=
        checkEach_calls o cfg c issuer now e cache' calls' fun _ _ _ _ => trivial
      have hkept := hfirst fun content crl hreplied =>
        hnew content crl (hreplied.mono List.prefix_rfl hrest.isPrefix)
      exact ih hkept.kept fun content crl hreplied =>
        hnew content crl (hreplied.mono hcalls.isPrefix List.prefix_rfl)

theorem check_restsOn (h : cache.Forall fun _ kept => P kept.value)
    (hnew : ∀ content crl, o.Replied calls (check o cfg c issuer now cache calls).2.2 content →
      Crl.parse content = .ok crl → P crl) :
    RestsOn P c issuer now (check o cfg c issuer now cache calls) :=
  checkEach_restsOn h hnew

end CrlCache

namespace RevocationChecker

/-- A checker that was loaded has its settings, the CRLs that were given, and nothing more. -/
theorem load_eq_ok {config : RevocationConfig} {files : Files} {ders : List Bytes}
    {k : RevocationChecker} (h : load config files ders = .ok k) :
    ∃ crls, LocalCrls.load files config.crlPaths ders = .ok crls ∧
      k = ⟨config, crls, .empty, .empty⟩ := by
  obtain ⟨crls, hcrls, h⟩ := bind_eq_ok_iff.mp h
  cases h
  exact ⟨crls, hcrls, rfl⟩

theorem staple_of_consulted {staple : Option Bytes} (h : .stapledOcsp ∈ consulted staple) :
    ∃ response, staple = some response := by
  cases staple with
  | none => simp [consulted] at h
  | some response => exact ⟨response, rfl⟩

end RevocationChecker

/-! ## 4. What is kept -/

section Kept

variable {o : Outside} {k₀ k : RevocationChecker} {start calls calls' : Calls}
  {steps steps' : List RevocationStep} {enabled : Bool} {c issuer : Certificate}
  {staple : Option Bytes} {now : Nat}

/-- An answer is kept that octets proved to an earlier check, of a certificate of that serial under
an issuer of that key. -/
structure Told (o : Outside) (start : Calls) (steps : List RevocationStep) (calls : Calls)
    (key : OcspKey) (kept : Kept Ocsp.Status) : Prop where
  definite : kept.value ≠ .unknown
  told : ∃ enabled c issuer staple response nonce,
    .check enabled c issuer staple kept.storedAt ∈ steps ∧ key = .of c issuer ∧
    Heard o start steps calls response ∧
    Ocsp.Proves response c issuer nonce kept.storedAt ⟨kept.value, kept.nextUpdate⟩

theorem Told.mono {key : OcspKey} {kept : Kept Ocsp.Status} (h : Told o start steps calls key kept)
    (hsteps : steps ⊆ steps') (hcalls : calls <+: calls') :
    Told o start steps' calls' key kept := by
  obtain ⟨hdefinite, enabled, c, issuer, staple, response, nonce, hstep, hkey, hheard, hproves⟩ := h
  exact ⟨hdefinite, enabled, c, issuer, staple, response, nonce, hsteps hstep, hkey,
    hheard.mono hsteps hcalls, hproves⟩

theorem told_of_evaluate {response : Bytes} {nonce : Option Bytes} {a : Ocsp.Answer}
    (hstep : .check enabled c issuer staple now ∈ steps)
    (hheard : Heard o start steps calls response)
    (heval : Ocsp.evaluate response c issuer nonce now = .ok a) (hdefinite : a.status ≠ .unknown) :
    Told o start steps calls (.of c issuer) ⟨a.status, now, a.nextUpdate⟩ :=
  ⟨hdefinite, enabled, c, issuer, staple, response, nonce, hstep, rfl, hheard,
    Ocsp.proves_of_evaluate heval⟩

/-- A CRL was downloaded. -/
def Downloaded (o : Outside) (start calls : Calls) (crl : Crl) : Prop :=
  ∃ content, o.Replied start calls content ∧ Crl.parse content = .ok crl

theorem Downloaded.mono {crl : Crl} (h : Downloaded o start calls crl) (hcalls : calls <+: calls') :
    Downloaded o start calls' crl := by
  obtain ⟨content, hreplied, hparse⟩ := h
  exact ⟨content, hreplied.mono List.prefix_rfl hcalls, hparse⟩

/-- The invariant of runs: all that is kept was heard in the run and proved what it is kept for;
settings and CRLs at hand stay. -/
structure Grounded (o : Outside) (k₀ : RevocationChecker) (start : Calls)
    (steps : List RevocationStep) (state : RevocationState) : Prop where
  config : state.1.config = k₀.config
  atHand : state.1.localCrls = k₀.localCrls
  calls : start <+: state.2
  answers : state.1.ocsp.Forall (Told o start steps state.2)
  crls : state.1.crls.Forall fun _ kept => Downloaded o start state.2 kept.value

namespace Grounded

theorem mono_steps {state : RevocationState} (h : Grounded o k₀ start steps state)
    (hsteps : steps ⊆ steps') : Grounded o k₀ start steps' state where
  config := h.config
  atHand := h.atHand
  calls := h.calls
  answers := h.answers.mono fun _ _ htold => htold.mono hsteps List.prefix_rfl
  crls := h.crls

/-- A staple that proves something may be kept. -/
theorem record (h : Grounded o k₀ start steps (k, calls)) {response : Bytes} {a : Ocsp.Answer}
    (hstep : .check enabled c issuer (some response) now ∈ steps)
    (heval : Ocsp.evaluate response c issuer none now = .ok a) :
    Grounded o k₀ start steps
      ({ k with ocsp := k.ocsp.record k.config c issuer now a }, calls) where
  config := h.config
  atHand := h.atHand
  calls := h.calls
  answers := OcspCache.record_forall h.answers
    (told_of_evaluate hstep (.inl ⟨enabled, c, issuer, now, hstep⟩) heval)
  crls := h.crls

theorem afterOcsp (h : Grounded o k₀ start steps (k, calls))
    (hstep : .check enabled c issuer staple now ∈ steps) :
    Grounded o k₀ start steps (RevocationChecker.afterOcsp o enabled c issuer now k calls) := by
  cases enabled with
  | false => exact h
  | true =>
    have hcalls := (OcspCache.check_calls o k.config c issuer now k.ocsp calls).isPrefix
    have hanswers := h.answers.mono fun _ _ htold => htold.mono (List.Subset.refl steps) hcalls
    refine ⟨h.config, h.atHand, h.calls.trans hcalls, ?_, ?_⟩
    · refine OcspCache.check_forall hanswers fun response nonce a hreplied heval hdefinite => ?_
      exact told_of_evaluate hstep (.inr (hreplied.mono h.calls List.prefix_rfl)) heval hdefinite
    · exact h.crls.mono fun _ _ hcrl => hcrl.mono hcalls

/-- After a fetch, too; and what was fetched says nothing that it does not attest. -/
theorem afterFetch (h : Grounded o k₀ start steps (k, calls))
    (hstep : .check enabled c issuer staple now ∈ steps) :
    Grounded o k₀ start steps (RevocationChecker.afterFetch o enabled c issuer now k calls) ∧
      ∀ s, (RevocationChecker.fetched o enabled c issuer now k calls).1 = .ok s →
        ∃ crl, Downloaded o start
            (RevocationChecker.afterFetch o enabled c issuer now k calls).2 crl ∧
          crl.Attests c issuer now s := by
  have hocsp := h.afterOcsp hstep
  have hcalls := (CrlCache.check_calls o k.config c issuer now k.crls
    (RevocationChecker.afterOcsp o enabled c issuer now k calls).2).isPrefix
  have hcrls : k.crls.Forall fun _ kept => Downloaded o start
      (RevocationChecker.fetched o enabled c issuer now k calls).2.2 kept.value := by
    have := hocsp.crls
    rw [RevocationChecker.afterOcsp_crls] at this
    exact this.mono fun _ _ hcrl => hcrl.mono hcalls
  have hfetched := CrlCache.check_restsOn hcrls fun content crl hreplied hparse =>
    ⟨content, hreplied.mono hocsp.calls List.prefix_rfl, hparse⟩
  refine ⟨⟨hocsp.config, hocsp.atHand, hocsp.calls.trans hcalls, ?_, hfetched.kept⟩,
    hfetched.attested⟩
  exact hocsp.answers.mono fun _ _ htold => htold.mono (List.Subset.refl steps) hcalls

/-- At the start, nothing is kept. -/
theorem load {config : RevocationConfig} {files : Files} {ders : List Bytes}
    (h : RevocationChecker.load config files ders = .ok k₀) (o : Outside) (start : Calls) :
    Grounded o k₀ start [] (k₀, start) := by
  obtain ⟨crls, -, rfl⟩ := RevocationChecker.load_eq_ok h
  exact ⟨rfl, rfl, List.prefix_rfl, Cache.Forall.empty _, Cache.Forall.empty _⟩

/-- A check keeps what it was told, and nothing else. -/
theorem check (h : Grounded o k₀ start steps (k, calls))
    (hstep : .check enabled c issuer staple now ∈ steps) :
    Grounded o k₀ start steps (k.check o enabled c issuer staple now calls).2 := by
  have hcourse := RevocationChecker.check_course o enabled c issuer staple now k calls
  generalize k.check o enabled c issuer staple now calls = r at hcourse
  cases hcourse with
  | undetermined _ => exact (h.afterFetch hstep).1
  | @decided source s after first word leaves =>
    cases source with
    | stapledOcsp =>
      obtain ⟨response, rfl⟩ := RevocationChecker.staple_of_consulted first.mem
      obtain ⟨a, heval, rfl⟩ := leaves
      exact h.record hstep heval
    | ocsp | localCrl =>
      obtain rfl : after = _ := leaves
      exact h.afterOcsp hstep
    | distributionPoint =>
      obtain rfl : after = _ := leaves
      exact (h.afterFetch hstep).1

theorem cleanup (h : Grounded o k₀ start steps (k, calls)) :
    Grounded o k₀ start steps (k.cleanup now, calls) where
  config := h.config
  atHand := h.atHand
  calls := h.calls
  answers := h.answers.sweep _ _
  crls := h.crls.sweep _ _

/-- One more use preserves the invariant. -/
theorem step {state : RevocationState} (h : Grounded o k₀ start steps state)
    (step : RevocationStep) : Grounded o k₀ start (steps ++ [step]) (step.apply o state) := by
  have hmore : Grounded o k₀ start (steps ++ [step]) state :=
    h.mono_steps (List.subset_append_left steps [step])
  cases step with
  | check enabled c issuer staple now => exact hmore.check (by simp)
  | cleanup now => exact hmore.cleanup

/-- The invariant holds after every run. -/
theorem run {state : RevocationState} (h : Grounded o k₀ start [] state)
    (steps : List RevocationStep) :
    Grounded o k₀ start steps (RevocationStep.run o state steps) := by
  induction steps using List.reverseRecOn with
  | nil => exact h
  | append_singleton steps step ih =>
    rw [RevocationStep.run_concat]
    exact ih.step step

end Grounded

end Kept

/-! ## 5. What verdicts rest on -/

section Verdicts

variable (o : Outside) (config : RevocationConfig) (files : Files) (ders : List Bytes)
  (start : Calls) (steps : List RevocationStep) (calls calls' : Calls) (c issuer : Certificate)
  (staple : Option Bytes) (now : Nat) (s : CrlStatus)

/-- What a check rests on that says of a certificate whether it is revoked. It is made after `steps`
and makes the calls from `calls` to `calls'`. -/
inductive Evidence : RevocationSource → Prop where
  /-- The staple of this check proves it now. -/
  | presented {response : Bytes} {a : Ocsp.Answer} (stapled : staple = some response)
      (proves : Ocsp.Proves response c issuer none now a) (status : a.status = s.asOcsp) :
      Evidence .stapledOcsp
  /-- What a responder replied to this check proves it now. -/
  | answered {response nonce : Bytes} {a : Ocsp.Answer} (replied : o.Replied calls calls' response)
      (proves : Ocsp.Proves response c issuer (some nonce) now a) (status : a.status = s.asOcsp) :
      Evidence .ocsp
  /-- What was heard before proved it to an earlier check, of the same serial number under the same
  key, and the answer kept of it has not expired. -/
  | kept {enabled : Bool} {c' issuer' : Certificate} {staple' nonce : Option Bytes}
      {response : Bytes} {kept : Kept Ocsp.Status}
      (earlier : .check enabled c' issuer' staple' kept.storedAt ∈ steps)
      (serial : c'.serial = c.serial)
      (key : Sha256.digest issuer'.publicKey.key = Sha256.digest issuer.publicKey.key)
      (heard : Heard o start steps calls response)
      (proves : Ocsp.Proves response c' issuer' nonce kept.storedAt ⟨kept.value, kept.nextUpdate⟩)
      (status : kept.value = s.asOcsp) (live : kept.isExpired config.ocspLifetime now = false) :
      Evidence .ocsp
  /-- A CRL that was given at the start attests it. -/
  | atHand {content : Bytes} {crl : Crl}
      (given : LocalCrls.Given files config.crlPaths ders content)
      (read : Crl.parse content = .ok crl) (attests : crl.Attests c issuer now s) :
      Evidence .localCrl
  /-- A CRL that a server replied with, to this check or an earlier one, attests it. -/
  | downloaded {content : Bytes} {crl : Crl} (replied : o.Replied start calls' content)
      (read : Crl.parse content = .ok crl) (attests : crl.Attests c issuer now s) :
      Evidence .distributionPoint

variable {o config files ders start steps calls calls' c issuer staple now s}
  {k₀ k : RevocationChecker} {enabled : Bool} {source : RevocationSource}

/-- What a source says, it says by evidence. -/
theorem evidence_of_says (loaded : RevocationChecker.load config files ders = .ok k₀)
    (h : Grounded o k₀ start steps (k, calls))
    (hasked : source = .stapledOcsp → ∃ response, staple = some response)
    (hword : RevocationChecker.Says o enabled c issuer staple now k calls source s)
    {after : RevocationState}
    (hleaves : RevocationChecker.Leaves o enabled c issuer staple now k calls source after) :
    Evidence o config files ders start steps calls after.2 c issuer staple now s source := by
  obtain ⟨crls, hlocal, rfl⟩ := RevocationChecker.load_eq_ok loaded
  cases source with
  | stapledOcsp =>
    obtain ⟨response, rfl⟩ := hasked rfl
    obtain ⟨a, heval, hstatus⟩ := hword
    exact .presented rfl (Ocsp.proves_of_evaluate heval) hstatus
  | ocsp =>
    obtain ⟨rfl, hcheck⟩ := hword
    obtain rfl : after = _ := hleaves
    rcases OcspCache.check_eq_ok hcheck with
      ⟨kept, hlive, hstatus⟩ | ⟨response, nonce, a, hreplied, heval, hstatus⟩
    · obtain ⟨⟨-, enabled', c', issuer', staple', response, nonce, hstep, hkey, hheard, hproves⟩,
        hfresh⟩ := h.answers.live? hlive
      obtain ⟨hkeyHash, hserial⟩ := OcspKey.mk.inj hkey
      rw [h.config] at hfresh
      exact .kept hstep hserial.symm hkeyHash.symm hheard hproves hstatus hfresh
    · exact .answered hreplied (Ocsp.proves_of_evaluate heval) hstatus
  | localCrl =>
    have hcheck : k.localCrls.check c issuer now = some (.ok s) := hword
    rw [h.atHand] at hcheck
    obtain ⟨crl, hcrl, hattests⟩ := LocalCrls.attests_of_check hcheck
    obtain ⟨content, hgiven, hparse⟩ := LocalCrls.given_of_load hlocal hcrl
    exact .atHand hgiven hparse hattests
  | distributionPoint =>
    obtain rfl : after = _ := hleaves
    have hmore := h.mono_steps
      (List.subset_append_left steps [.check enabled c issuer staple now])
    obtain ⟨-, hfetched⟩ := hmore.afterFetch (List.mem_append_right steps List.mem_cons_self)
    obtain ⟨crl, ⟨content, hreplied, hparse⟩, hattests⟩ := hfetched s hword
    exact .downloaded hreplied hparse hattests

end Verdicts

/-- **Every verdict rests on evidence.** Whatever a checker was used for before, and whatever
servers reply: where a check says that a certificate is good, or that it is revoked, some octets
that it was given, presented with or replied prove so. -/
theorem check_rests_on_evidence {o : Outside} {config : RevocationConfig} {files : Files}
    {ders : List Bytes} {k₀ k k' : RevocationChecker} {start calls calls' : Calls}
    {steps : List RevocationStep} {enabled : Bool} {c issuer : Certificate}
    {staple : Option Bytes} {now : Nat} {r : Except ValidationFailure RevocationSource}
    (loaded : RevocationChecker.load config files ders = .ok k₀)
    (reached : RevocationStep.run o (k₀, start) steps = (k, calls))
    (checked : k.check o enabled c issuer staple now calls = (r, k', calls')) :
    (∀ source, r = .ok source →
      Evidence o config files ders start steps calls calls' c issuer staple now .valid source) ∧
    ∀ subject source, r = .error (.revoked subject source) →
      Evidence o config files ders start steps calls calls' c issuer staple now .revoked
        source := by
  have hgrounded : Grounded o k₀ start steps (k, calls) :=
    reached ▸ (Grounded.load loaded o start).run steps
  have hcourse := RevocationChecker.check_iff_course.mp checked
  cases hcourse with
  | undetermined _ => exact ⟨by simp, by simp⟩
  | @decided source s after first word leaves =>
    have hevidence := evidence_of_says loaded hgrounded
      (fun h => RevocationChecker.staple_of_consulted (h ▸ first.mem)) word leaves
    cases s with
    | valid =>
      refine ⟨fun source' h => ?_, fun _ _ h => (nomatch h)⟩
      cases h
      exact hevidence
    | revoked =>
      refine ⟨fun _ h => (nomatch h), fun subject source' h => ?_⟩
      cases h
      exact hevidence

/-! ## 6. A CRL that was given -/

namespace Sample

open X509.Strict (encodeSequence)

/-- An issuer without a name, with a key on P-256. -/
def issuer : Certificate :=
  { (default : Certificate) with
    subject := encodeSequence []
    publicKey := ⟨⟨Oid.ecPublicKey, some ⟨.universal, false, 6, Oid.curveP256.octets, []⟩⟩,
      4 :: (Bytes.ofNat 32 0x42636c932b5d0b1741e7aed71f7ad2fae7de6888f8bef1bd8b151cd03927b201 ++
        Bytes.ofNat 32 0xcb3b6ed9e350df531aa9366d72cc2738c0a32588ba8bcb097f3c71018430a77f)⟩ }

/-- One of its certificates. -/
def certificate : Certificate :=
  { (default : Certificate) with issuer := issuer.subject, serial := [5] }

def algorithm : Bytes := encodeSequence [Der.encode Der.tagOid Oid.ecdsaWithSha256.octets]

def time : Bytes := Der.encode Der.tagUtcTime (Bytes.ofText "2501010000Z")

/-- It says that the certificate is revoked. -/
def signed : Bytes :=
  encodeSequence [algorithm, issuer.subject, time,
    encodeSequence [encodeSequence [Der.encode Der.tagInteger certificate.serial, time]]]

def signature : Bytes :=
  encodeSequence
    [Der.encodeNatural 0x1d7c1beef941704ec0341c1f160ebd07b17c4c3cb33058f6302ffbe5d6bab608,
      Der.encodeNatural 0xaa2fa4dca25e4784b09543e3986faffc402e5431fd5e234f68fbf4ca2c0870bf]

def crl : Bytes := encodeSequence [signed, algorithm, Der.encode Der.tagBits (0 :: signature)]

/-- The CRL as it is read. -/
def record : Crl where
  issuer := issuer.subject
  nextUpdate := none
  revoked := [certificate.serial]
  coverage := .within .complete
  signed := signed
  signatureAlgorithm := ⟨Oid.ecdsaWithSha256, none⟩
  signature := signature

def checker : RevocationChecker := ⟨.standard, [record], .empty, .empty⟩

/-- Files that are not there, and a network that does not answer. -/
def noFiles : Files := fun _ => .error default

def silent : Outside := ⟨fun _ _ => .error default, fun _ => [], fun _ => 0⟩

def now : Nat := 1735776000

def result : Except ValidationFailure RevocationSource × RevocationState :=
  checker.check silent false certificate issuer none now []

theorem result_revoked : result.1 = .error (.revoked "serial:05" .localCrl) := by decide +kernel

end Sample

open Sample in
theorem revoked_rests_on_crl_at_hand :
    result.1 = .error (.revoked "serial:05" .localCrl) ∧
      Evidence silent .standard noFiles [crl] [] [.cleanup now] [] result.2.2 certificate issuer
        none now .revoked .localCrl := by
  have hparse : Crl.parse crl = .ok record := by decide +kernel
  have loaded : RevocationChecker.load .standard noFiles [crl] = .ok checker := by
    simp only [RevocationChecker.load, LocalCrls.load, RevocationConfig.standard, List.mapM_nil,
      List.mapM_cons, hparse, bind, Except.bind, pure, Except.pure]
    rfl
  have reached : RevocationStep.run silent (checker, []) [.cleanup now] = (checker, []) := rfl
  have checked (r : Except ValidationFailure RevocationSource × RevocationState)
      {e : Except ValidationFailure RevocationSource} (h : r.1 = e) : r = (e, r.2.1, r.2.2) := by
    rw [← h]
  have hevidence := check_rests_on_evidence loaded reached (checked result result_revoked)
  exact ⟨result_revoked, hevidence.2 _ _ rfl⟩

end PeerTrust
