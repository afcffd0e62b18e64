import PeerTrust.Proofs.Evidence
import PeerTrust.Proofs.KeptAnswers
import PeerTrust.Proofs.PeerTraffic

/-!
# What a staple can do

A staple is what the peer chooses to present, and what it says may be kept.

* `RevocationChecker.Mute` is a staple that decides nothing, `RevocationChecker.Settles` one that
  does: always one of them;
* `RevocationChecker.check_of_mute`: the check with a mute staple is the check without one, but for
  the wording (`RevocationChecker.Led`);
* `RevocationChecker.Confined` says all that a staple may change:
  `RevocationChecker.askStaple_confined`;
* `RevocationChecker.Sourced` follows where kept answers come from while the links above the end
  entity are checked: `RevocationChecker.found_after_staple`;
* `OcspCache.AlikeBut` and `RevocationChecker.AlikeBut` relate two runs that differ in what is kept
  under one key; checks of other keys keep them alike (`RevocationChecker.AlikeBut.check`,
  `PeerVerifier.checkLinks_alike`);
* `PeerVerifier.staple_confined` puts these together.
-/

namespace PeerTrust

namespace RevocationChecker

variable {o : Outside} {enabled : Bool} {c issuer : Certificate} {staple : Bytes}
  {reasons : List String} {now : Nat} {k k' : RevocationChecker} {calls : Calls}

/-! ## 1. Staples that decide nothing -/

/-- A staple decides nothing, for these reasons; an empty one needs none. -/
inductive Mute (c issuer : Certificate) (now : Nat) :
    (staple : Bytes) → (reasons : List String) → Prop where
  | empty : Mute c issuer now [] []
  | rejected {staple : Bytes} {e : Ocsp.Error} (present : staple ≠ [])
      (refused : Ocsp.evaluate staple c issuer none now = .error e) :
      Mute c issuer now staple [s!"{RevocationSource.stapledOcsp.name}: {e.message}"]
  | unknown {staple : Bytes} {a : Ocsp.Answer} (present : staple ≠ [])
      (accepted : Ocsp.evaluate staple c issuer none now = .ok a)
      (undecided : a.status = .unknown) :
      Mute c issuer now staple
        [s!"{RevocationSource.stapledOcsp.name}: responder does not know the certificate"]

/-- A staple is accepted, and says that the certificate is good or that it is revoked. -/
structure Settles (staple : Bytes) (c issuer : Certificate) (now : Nat) (a : Ocsp.Answer) :
    Prop where
  present : staple ≠ []
  accepted : Ocsp.evaluate staple c issuer none now = .ok a
  definite : a.status ≠ .unknown

theorem mute_or_settles (staple : Bytes) (c issuer : Certificate) (now : Nat) :
    (∃ reasons, Mute c issuer now staple reasons) ∨ ∃ a, Settles staple c issuer now a := by
  by_cases hpresent : staple = []
  · subst hpresent
    exact .inl ⟨_, .empty⟩
  cases heval : Ocsp.evaluate staple c issuer none now with
  | error e => exact .inl ⟨_, .rejected hpresent heval⟩
  | ok a =>
    by_cases hstatus : a.status = .unknown
    · exact .inl ⟨_, .unknown hpresent heval hstatus⟩
    · exact .inr ⟨a, hpresent, heval, hstatus⟩

/-- A staple that is there is evaluated. -/
theorem askStaple_present (hpresent : staple ≠ []) (k : RevocationChecker) :
    askStaple c issuer (some staple) now k =
      (decide c .stapledOcsp [] (.ofResult Ocsp.Error.message .ofOcsp
          (k.ocsp.takeStapled k.config staple c issuer now).1),
        { k with ocsp := (k.ocsp.takeStapled k.config staple c issuer now).2 }) := by
  simp only [askStaple, Option.filter, hpresent, ne_eq, not_false_eq_true, decide_true, if_true]

theorem askStaple_of_mute (h : Mute c issuer now staple reasons) (k : RevocationChecker) :
    askStaple c issuer (some staple) now k = (.error reasons, k) := by
  cases h with
  | empty => rfl
  | rejected present refused =>
    rw [askStaple_present present, OcspCache.takeStapled, refused]
    rfl
  | unknown present accepted undecided =>
    rw [askStaple_present present, OcspCache.takeStapled, accepted]
    simp only [OcspCache.takeAnswer, OcspCache.record, undecided, if_true]
    rfl

theorem askStaple_of_settles {a : Ocsp.Answer} (h : Settles staple c issuer now a)
    (k : RevocationChecker) :
    ∃ s : CrlStatus, a.status = s.asOcsp ∧ askStaple c issuer (some staple) now k =
      (.ok (s.decision c .stapledOcsp),
        { k with ocsp := k.ocsp.record k.config c issuer now a }) := by
  rw [askStaple_present h.present, OcspCache.takeStapled, h.accepted]
  cases hstatus : a.status with
  | good => exact ⟨.valid, rfl, by simp only [OcspCache.takeAnswer, hstatus]; rfl⟩
  | revoked => exact ⟨.revoked, rfl, by simp only [OcspCache.takeAnswer, hstatus]; rfl⟩
  | unknown => exact absurd hstatus h.definite

/-! ## 2. Checks with and without a staple -/

/-- What a check comes to once the staple has decided nothing: the sources behind it are asked in
turn, and the state is the one after the last of them. -/
theorem check_of_askStaple {staple : Option Bytes}
    (h : askStaple c issuer staple now k = (.error reasons, k)) :
    k.check o enabled c issuer staple now calls =
      match decide c .ocsp reasons (verdictOf o enabled c issuer none now k calls .ocsp) with
      | .ok decision => (decision, afterOcsp o enabled c issuer now k calls)
      | .error reasons =>
        match decide c .localCrl reasons
            (verdictOf o enabled c issuer none now k calls .localCrl) with
        | .ok decision => (decision, afterOcsp o enabled c issuer now k calls)
        | .error reasons =>
          (conclude c (decide c .distributionPoint reasons
              (verdictOf o enabled c issuer none now k calls .distributionPoint)),
            afterFetch o enabled c issuer now k calls) := by
  simp only [check, h, askOcsp_eq o enabled c issuer none now k calls]
  cases decide c .ocsp reasons (verdictOf o enabled c issuer none now k calls .ocsp) with
  | ok decision => rfl
  | error reasons =>
    simp only [askLocal_eq o enabled c issuer none now k calls]
    cases decide c .localCrl reasons (verdictOf o enabled c issuer none now k calls .localCrl) with
    | ok decision => rfl
    | error reasons => simp only [askDistribution_eq o enabled c issuer none now k calls]

/-- Two outcomes are the same, but that reasons lead those of the first where the status is
undetermined. -/
inductive Led (reasons : List String) :
    (r r' : Except ValidationFailure RevocationSource) → Prop where
  | vouched (source : RevocationSource) : Led reasons (.ok source) (.ok source)
  | revoked (subject : String) (source : RevocationSource) :
      Led reasons (.error (.revoked subject source)) (.error (.revoked subject source))
  | undetermined (subject : String) (rest : List String) :
      Led reasons (.error (.undetermined subject ("; ".intercalate (reasons ++ rest))))
        (.error (.undetermined subject ("; ".intercalate rest)))

theorem Led.decision (reasons : List String) (c : Certificate) (source : RevocationSource)
    (s : CrlStatus) : Led reasons (s.decision c source) (s.decision c source) := by
  cases s with
  | valid => exact .vouched source
  | revoked => exact .revoked _ source

/-- **A staple that decides nothing changes nothing but the wording.** -/
theorem check_of_mute (h : Mute c issuer now staple reasons) (o : Outside) (enabled : Bool)
    (k : RevocationChecker) (calls : Calls) :
    Led reasons (k.check o enabled c issuer (some staple) now calls).1
        (k.check o enabled c issuer none now calls).1 ∧
      (k.check o enabled c issuer (some staple) now calls).2 =
        (k.check o enabled c issuer none now calls).2 := by
  -- with and without the staple, the same sources are left to ask, from the same state
  rw [check_of_askStaple (askStaple_of_mute h k),
    check_of_askStaple (askStaple_of_absent c issuer none now k rfl)]
  rcases (verdictOf o enabled c issuer none now k calls .ocsp).ofCrl_or_inconclusive with
    ⟨s, hs⟩ | ⟨reason₁, h₁⟩
  · simp only [hs, decide_ofCrl]
    exact ⟨.decision reasons c .ocsp s, trivial⟩
  simp only [h₁, decide_inconclusive]
  rcases (verdictOf o enabled c issuer none now k calls .localCrl).ofCrl_or_inconclusive with
    ⟨s, hs⟩ | ⟨reason₂, h₂⟩
  · simp only [hs, decide_ofCrl]
    exact ⟨.decision reasons c .localCrl s, trivial⟩
  simp only [h₂, decide_inconclusive]
  rcases (verdictOf o enabled c issuer none now k calls .distributionPoint).ofCrl_or_inconclusive
    with ⟨s, hs⟩ | ⟨reason₃, h₃⟩
  · simp only [hs, decide_ofCrl]
    exact ⟨.decision reasons c .distributionPoint s, trivial⟩
  simp only [h₃, decide_inconclusive, List.append_assoc, conclude]
  exact ⟨.undetermined c.displayName _, trivial⟩

/-! ## 3. What a staple changes -/

/-- All that taking a staple for a certificate may change. -/
structure Confined (staple : Bytes) (c issuer : Certificate) (now : Nat)
    (k k' : RevocationChecker) : Prop where
  config : k'.config = k.config
  localCrls : k'.localCrls = k.localCrls
  crls : k'.crls = k.crls
  counters : k'.ocsp.hits = k.ocsp.hits ∧ k'.ocsp.misses = k.ocsp.misses
  /-- Only what an accepted staple says of the certificate is put among the answers that are kept,
  under the key of the certificate. -/
  added : ∀ key kept, (key, kept) ∈ k'.ocsp.entries → (key, kept) ∉ k.ocsp.entries →
    key = .of c issuer ∧ ∃ a, Settles staple c issuer now a ∧
      kept = ⟨a.status, now, a.nextUpdate⟩
  /-- It takes the place of what was there, and answers may be dropped that have expired. -/
  dropped : ∀ key kept, (key, kept) ∈ k.ocsp.entries → (key, kept) ∉ k'.ocsp.entries →
    (key = .of c issuer ∧ ∃ a, Settles staple c issuer now a) ∨
      kept.isExpired k.config.ocspLifetime now = true
  /-- There is no change at all where the staple is not accepted, or decides nothing. -/
  unchanged : (∀ a, ¬ Settles staple c issuer now a) → k' = k

theorem Confined.refl (staple : Bytes) (c issuer : Certificate) (now : Nat)
    (k : RevocationChecker) : Confined staple c issuer now k k where
  config := rfl
  localCrls := rfl
  crls := rfl
  counters := ⟨rfl, rfl⟩
  added _ _ hmem hnot := absurd hmem hnot
  dropped _ _ hmem hnot := absurd hmem hnot
  unchanged _ := rfl

theorem Confined.record {a : Ocsp.Answer} (h : Settles staple c issuer now a)
    (k : RevocationChecker) :
    Confined staple c issuer now k { k with ocsp := k.ocsp.record k.config c issuer now a } := by
  have hentries : k.ocsp.record k.config c issuer now a = k.ocsp.store OcspCache.sweepLimit
      k.config.ocspLifetime now (.of c issuer) ⟨a.status, now, a.nextUpdate⟩ :=
    if_neg h.definite
  constructor
  · rfl
  · rfl
  · rfl
  · exact record_counters c issuer now k.config a k.ocsp
  · intro key kept hmem hnot
    rw [hentries] at hmem
    rcases Cache.mem_of_mem_store hmem with ⟨rfl, rfl⟩ | ⟨-, hold⟩
    · exact ⟨rfl, a, h, rfl⟩
    · exact absurd hold hnot
  · intro key kept hmem hnot
    rw [hentries] at hnot
    by_cases hkey : key = .of c issuer
    · exact .inl ⟨hkey, a, h⟩
    · refine .inr (eq_true_of_ne_false fun hfresh => hnot ?_)
      exact (Cache.mem_store_iff hfresh).mpr (.inr ⟨hkey, hmem⟩)
  · exact fun hnone => absurd h (hnone a)

/-- **A staple is confined to the certificate that it is presented for.** -/
theorem askStaple_confined (staple : Bytes) (c issuer : Certificate) (now : Nat)
    (k : RevocationChecker) :
    Confined staple c issuer now k (askStaple c issuer (some staple) now k).2 := by
  rcases mute_or_settles staple c issuer now with ⟨reasons, hmute⟩ | ⟨a, hsettles⟩
  · rw [askStaple_of_mute hmute]
    exact .refl staple c issuer now k
  · obtain ⟨s, -, hask⟩ := askStaple_of_settles hsettles k
    rw [hask]
    exact .record hsettles k

/-! ## 4. What later certificates are checked by -/

/-- The state once sources behind the staple were asked: nothing else touches the answers that are
kept. -/
theorem check_none_state (o : Outside) (enabled : Bool) (c issuer : Certificate) (now : Nat)
    (k : RevocationChecker) (calls : Calls) :
    (k.check o enabled c issuer none now calls).2 = afterOcsp o enabled c issuer now k calls ∨
      (k.check o enabled c issuer none now calls).2 =
        afterFetch o enabled c issuer now k calls := by
  rw [check_of_askStaple (askStaple_of_absent c issuer none now k rfl)]
  split
  · exact .inl rfl
  · split
    · exact .inl rfl
    · exact .inr rfl

/-- An answer is kept that a reply proved to a check at this time. -/
def ProvedByReply (o : Outside) (start calls : Calls) (now : Nat) (key : OcspKey)
    (kept : Kept Ocsp.Status) : Prop :=
  ∃ c issuer response nonce a, o.Replied start calls response ∧
    Ocsp.evaluate response c issuer (some nonce) now = .ok a ∧ key = .of c issuer ∧
    kept = ⟨a.status, now, a.nextUpdate⟩

/-- All that is kept was there at the start, or is under one key, or was proved by a reply. -/
structure Sourced (o : Outside) (start : RevocationState) (now : Nat) (key : OcspKey)
    (s : RevocationState) : Prop where
  config : s.1.config = start.1.config
  calls : start.2 <+: s.2
  answers : s.1.ocsp.Forall fun key' kept => key' = key ∨ (key', kept) ∈ start.1.ocsp.entries ∨
    ProvedByReply o start.2 s.2 now key' kept

variable {start s s' : RevocationState} {key : OcspKey}

theorem ProvedByReply.mono {calls' : Calls} {kept : Kept Ocsp.Status}
    (h : ProvedByReply o start.2 calls now key kept) (hcalls : calls <+: calls') :
    ProvedByReply o start.2 calls' now key kept := by
  obtain ⟨c, issuer, response, nonce, a, hreplied, hproves⟩ := h
  exact ⟨c, issuer, response, nonce, a, hreplied.mono List.prefix_rfl hcalls, hproves⟩

theorem Sourced.of_same_answers (h : Sourced o start now key s) (hconfig : s'.1.config = s.1.config)
    (hocsp : s'.1.ocsp = s.1.ocsp) (hcalls : s.2 <+: s'.2) : Sourced o start now key s' where
  config := hconfig.trans h.config
  calls := h.calls.trans hcalls
  answers := by
    rw [hocsp]
    exact h.answers.mono fun _ _ hkept => hkept.imp_right (Or.imp_right (·.mono hcalls))

theorem Sourced.afterOcsp (h : Sourced o start now key s) (enabled : Bool)
    (c issuer : Certificate) :
    Sourced o start now key (RevocationChecker.afterOcsp o enabled c issuer now s.1 s.2) := by
  cases enabled with
  | false => exact h
  | true =>
    have hcalls := (OcspCache.check_calls o s.1.config c issuer now s.1.ocsp s.2).isPrefix
    have hmoved := h.answers.mono fun _ _ hkept => hkept.imp_right (Or.imp_right (·.mono hcalls))
    refine ⟨h.config, h.calls.trans hcalls, ?_⟩
    refine OcspCache.check_forall hmoved fun response nonce a hreplied heval _ => .inr (.inr ?_)
    exact ⟨c, issuer, response, nonce, a, hreplied.mono h.calls List.prefix_rfl, heval, rfl, rfl⟩

/-- A check without a staple keeps no answer but what a reply proves to it. -/
theorem Sourced.check (h : Sourced o start now key s) (enabled : Bool) (c issuer : Certificate) :
    Sourced o start now key (s.1.check o enabled c issuer none now s.2).2 := by
  have hocsp := h.afterOcsp enabled c issuer
  rcases check_none_state o enabled c issuer now s.1 s.2 with hstate | hstate
  · rw [hstate]
    exact hocsp
  · rw [hstate]
    exact hocsp.of_same_answers rfl rfl
      (CrlCache.check_calls o s.1.config c issuer now s.1.crls _).isPrefix

theorem check_of_settles {a : Ocsp.Answer} (h : Settles staple c issuer now a) (o : Outside)
    (enabled : Bool) (k : RevocationChecker) (calls : Calls) :
    ∃ s : CrlStatus, a.status = s.asOcsp ∧ k.check o enabled c issuer (some staple) now calls =
      (s.decision c .stapledOcsp, (askStaple c issuer (some staple) now k).2, calls) := by
  obtain ⟨s, hs, hask⟩ := askStaple_of_settles h k
  exact ⟨s, hs, by simp only [RevocationChecker.check, hask]⟩

/-- Of a check with a staple, the staple accounts for one key only. -/
theorem sourced_check (o : Outside) (enabled : Bool) (staple : Bytes) (c issuer : Certificate)
    (now : Nat) (k : RevocationChecker) (calls : Calls) :
    Sourced o (k, calls) now (.of c issuer)
      (k.check o enabled c issuer (some staple) now calls).2 := by
  have hstart : Sourced o (k, calls) now (.of c issuer) (k, calls) :=
    ⟨rfl, List.prefix_rfl, fun _ _ hmem => .inr (.inl hmem)⟩
  rcases mute_or_settles staple c issuer now with ⟨reasons, hmute⟩ | ⟨a, hsettles⟩
  · rw [(check_of_mute hmute o enabled k calls).2]
    exact hstart.check enabled c issuer
  · obtain ⟨s, -, hcheck⟩ := check_of_settles hsettles o enabled k calls
    -- what is kept now and was not before is the staple's, and so is its key
    have hconfined := askStaple_confined staple c issuer now k
    rw [hcheck]
    refine ⟨hconfined.config, List.prefix_rfl, fun key kept hmem => ?_⟩
    by_cases hold : (key, kept) ∈ k.ocsp.entries
    · exact .inr (.inl hold)
    · exact .inl (hconfined.added key kept hmem hold).1

theorem Sourced.vouched {p : SecurityPolicy} {links : List Link} (h : Sourced o start now key s)
    (hvouched : PeerVerifier.Vouched o p now none links s s') : Sourced o start now key s' := by
  induction links generalizing s with
  | nil =>
    cases hvouched
    exact h
  | cons link above ih =>
    cases hvouched with
    | next checked rest =>
      have hnext := h.check p.ocspEnabled link.certificate link.issuer
      rw [checked] at hnext
      exact ih hnext rest

/-- **An answer that a later certificate is checked by is not from the staple.** It was kept before,
or is kept under the key of the end entity, or was proved by a reply. -/
theorem found_after_staple {p : SecurityPolicy} {link : Link} {below : List Link}
    (hvouched : PeerVerifier.Vouched o p now (some staple) (link :: below) (k, calls) s)
    {kept : Kept Ocsp.Status}
    (hlive : s.1.ocsp.live? s.1.config.ocspLifetime now key = some kept) :
    key = .of link.certificate link.issuer ∨ (key, kept) ∈ k.ocsp.entries ∨
      ProvedByReply o calls s.2 now key kept := by
  cases hvouched with
  | next checked rest =>
    have hfirst := sourced_check o p.ocspEnabled staple link.certificate link.issuer now k calls
    rw [checked] at hfirst
    exact ((hfirst.vouched rest).answers.live? hlive).1

end RevocationChecker

/-! ## 5. Runs with and without an answer -/

namespace OcspCache

variable {o : Outside} {cfg : RevocationConfig} {c issuer : Certificate} {lifetime now : Nat}
  {key other : OcspKey} {cache cache' : OcspCache} {calls : Calls}

/-- Two caches are alike, but for what they keep under one key, and for answers that have expired at
a time. -/
structure AlikeBut (lifetime now : Nat) (key : OcspKey) (cache cache' : OcspCache) : Prop where
  counters : cache'.hits = cache.hits ∧ cache'.misses = cache.misses
  answers : ∀ other kept, other ≠ key → kept.isExpired lifetime now = false →
    ((other, kept) ∈ cache'.entries ↔ (other, kept) ∈ cache.entries)
  distinct : cache.Distinct ∧ cache'.Distinct

theorem record_distinct (h : cache.Distinct) (cfg : RevocationConfig) (c issuer : Certificate)
    (now : Nat) (a : Ocsp.Answer) : (cache.record cfg c issuer now a).Distinct := by
  unfold record
  split
  · exact h
  · exact h.store _ _ _ _ _

namespace AlikeBut

theorem live? (h : AlikeBut lifetime now key cache cache') (hother : other ≠ key) :
    cache'.live? lifetime now other = cache.live? lifetime now other := by
  refine Option.ext fun kept => ?_
  rw [h.distinct.1.live?_eq_some_iff, h.distinct.2.live?_eq_some_iff]
  exact and_congr_left (h.answers other kept hother)

theorem countHit (h : AlikeBut lifetime now key cache cache') :
    AlikeBut lifetime now key cache.countHit cache'.countHit where
  counters := ⟨congrArg (· + 1) h.counters.1, h.counters.2⟩
  answers := h.answers
  distinct := h.distinct

theorem countMiss (h : AlikeBut lifetime now key cache cache') :
    AlikeBut lifetime now key cache.countMiss cache'.countMiss where
  counters := ⟨h.counters.1, congrArg (· + 1) h.counters.2⟩
  answers := h.answers
  distinct := h.distinct

theorem record (h : AlikeBut cfg.ocspLifetime now key cache cache') (c issuer : Certificate)
    (a : Ocsp.Answer) : AlikeBut cfg.ocspLifetime now key (cache.record cfg c issuer now a)
      (cache'.record cfg c issuer now a) where
  counters := by
    obtain ⟨hhits, hmisses⟩ := RevocationChecker.record_counters c issuer now cfg a cache
    obtain ⟨hhits', hmisses'⟩ := RevocationChecker.record_counters c issuer now cfg a cache'
    rw [hhits, hmisses, hhits', hmisses']
    exact h.counters
  answers other kept hother hfresh := by
    unfold OcspCache.record
    split
    · exact h.answers other kept hother hfresh
    · rw [Cache.mem_store_iff hfresh, Cache.mem_store_iff hfresh,
        h.answers other kept hother hfresh]
  distinct := ⟨record_distinct h.distinct.1 _ _ _ _ _, record_distinct h.distinct.2 _ _ _ _ _⟩

/-- A certificate of another key is looked up, asked for and recorded alike. -/
theorem check (h : AlikeBut cfg.ocspLifetime now key cache cache') (hother : .of c issuer ≠ key)
    (o : Outside) (calls : Calls) :
    (cache'.check o cfg c issuer now calls).1 = (cache.check o cfg c issuer now calls).1 ∧
      (cache'.check o cfg c issuer now calls).2.2 = (cache.check o cfg c issuer now calls).2.2 ∧
      AlikeBut cfg.ocspLifetime now key (cache.check o cfg c issuer now calls).2.1
        (cache'.check o cfg c issuer now calls).2.1 := by
  unfold OcspCache.check
  rw [h.live? hother]
  cases cache.live? cfg.ocspLifetime now (.of c issuer) with
  | some kept => exact ⟨rfl, rfl, h.countHit⟩
  | none =>
    simp only
    cases responders cfg c with
    | error e => exact ⟨rfl, rfl, h.countMiss⟩
    | ok urls =>
      simp only
      rcases queryEach o cfg c issuer now (.ocsp (.noResponder c.displayName)) urls calls with
        ⟨e | a, calls'⟩
      · exact ⟨rfl, rfl, h.countMiss⟩
      · exact ⟨rfl, rfl, h.countMiss.record c issuer a⟩

end AlikeBut

end OcspCache

namespace RevocationChecker

variable {o : Outside} {c issuer : Certificate} {now : Nat} {key : OcspKey}
  {k k' : RevocationChecker}

/-- Two checkers are alike, but for what they keep under one key, and for answers that have expired
at a time. -/
structure AlikeBut (now : Nat) (key : OcspKey) (k k' : RevocationChecker) : Prop where
  config : k'.config = k.config
  localCrls : k'.localCrls = k.localCrls
  crls : k'.crls = k.crls
  ocsp : OcspCache.AlikeBut k.config.ocspLifetime now key k.ocsp k'.ocsp

/-- Two runs come to the same, after the same calls, and leave checkers that are alike. -/
structure AlikeRuns {α : Type} (now : Nat) (key : OcspKey) (r r' : α × RevocationState) :
    Prop where
  result : r'.1 = r.1
  calls : r'.2.2 = r.2.2
  state : AlikeBut now key r.2.1 r'.2.1

/-- **A certificate of another key is checked alike.** -/
theorem AlikeBut.check (h : AlikeBut now key k k') (hother : .of c issuer ≠ key) (o : Outside)
    (enabled : Bool) (calls : Calls) :
    AlikeRuns now key (k.check o enabled c issuer none now calls)
      (k'.check o enabled c issuer none now calls) := by
  obtain ⟨hresult, hasked, hcache⟩ := h.ocsp.check hother o calls
  have hcheck : k'.ocsp.check o k'.config c issuer now calls =
      k'.ocsp.check o k.config c issuer now calls := by rw [h.config]
  obtain ⟨hcalls, hstate⟩ : (afterOcsp o enabled c issuer now k' calls).2 =
        (afterOcsp o enabled c issuer now k calls).2 ∧
      AlikeBut now key (afterOcsp o enabled c issuer now k calls).1
        (afterOcsp o enabled c issuer now k' calls).1 := by
    cases enabled with
    | false => exact ⟨rfl, h⟩
    | true =>
      rw [afterOcsp, afterOcsp, if_pos rfl, if_pos rfl, hcheck]
      exact ⟨hasked, h.config, h.localCrls, h.crls, hcache⟩
  -- what is fetched depends on the calls before it, and these are the same
  have hfetched :
      fetched o enabled c issuer now k' calls = fetched o enabled c issuer now k calls := by
    rw [fetched, fetched, hcalls, h.crls, h.config]
  have hverdicts : verdictOf o enabled c issuer none now k' calls =
      verdictOf o enabled c issuer none now k calls := by
    funext source
    cases source with
    | stapledOcsp => rfl
    | ocsp => simp only [verdictOf, hcheck, hresult]
    | localCrl => simp only [verdictOf, h.localCrls]
    | distributionPoint => simp only [verdictOf, hfetched]
  have hafter : AlikeBut now key (afterFetch o enabled c issuer now k calls).1
      (afterFetch o enabled c issuer now k' calls).1 := by
    simp only [afterFetch, hfetched]
    exact { hstate with crls := rfl }
  rw [check_of_askStaple (askStaple_of_absent c issuer none now k rfl),
    check_of_askStaple (askStaple_of_absent c issuer none now k' rfl), hverdicts]
  split
  · exact ⟨rfl, hcalls, hstate⟩
  · split
    · exact ⟨rfl, hcalls, hstate⟩
    · exact ⟨rfl, congrArg (·.2.2) hfetched, hafter⟩

end RevocationChecker

namespace PeerVerifier

open RevocationChecker

variable {o : Outside} {p : SecurityPolicy} {now : Nat} {key : OcspKey} {k k' : RevocationChecker}

/-- **Links of other keys are checked alike.** -/
theorem checkLinks_alike {links : List Link} (h : AlikeBut now key k k')
    (hother : ∀ link ∈ links, .of link.certificate link.issuer ≠ key) (calls : Calls) :
    AlikeRuns now key (checkLinks o p now none links k calls)
      (checkLinks o p now none links k' calls) := by
  induction links generalizing k k' calls with
  | nil => exact ⟨rfl, rfl, h⟩
  | cons link above ih =>
    obtain ⟨hlink, habove⟩ := List.forall_mem_cons.mp hother
    obtain ⟨hresult, hcalls, hstate⟩ := h.check hlink o p.ocspEnabled calls
    unfold checkLinks
    rcases hrun : k.check o p.ocspEnabled link.certificate link.issuer none now calls with
      ⟨r, k₁, calls₁⟩
    rcases hrun' : k'.check o p.ocspEnabled link.certificate link.issuer none now calls with
      ⟨r', k₁', calls₁'⟩
    rw [hrun, hrun'] at hresult hcalls hstate
    obtain rfl : r' = r := hresult
    obtain rfl : calls₁' = calls₁ := hcalls
    cases r' with
    | ok source => exact ih hstate habove calls₁'
    | error failure => exact ⟨rfl, rfl, hstate⟩

end PeerVerifier

/-! ## 6. What every checker keeps -/

theorem OcspCache.check_distinct {cache : OcspCache} (h : cache.Distinct) (o : Outside)
    (cfg : RevocationConfig) (c issuer : Certificate) (now : Nat) (calls : Calls) :
    (cache.check o cfg c issuer now calls).2.1.Distinct := by
  unfold OcspCache.check
  split
  · exact h.countHit
  · simp only
    split
    · exact h.countMiss
    · split
      · exact h.countMiss
      · exact record_distinct h.countMiss _ _ _ _ _

namespace RevocationChecker

variable {k k' : RevocationChecker}

theorem askStaple_distinct (h : k.ocsp.Distinct) (staple : Bytes) (c issuer : Certificate)
    (now : Nat) : (askStaple c issuer (some staple) now k).2.ocsp.Distinct := by
  rcases mute_or_settles staple c issuer now with ⟨reasons, hmute⟩ | ⟨a, hsettles⟩
  · rw [askStaple_of_mute hmute]
    exact h
  · obtain ⟨s, -, hask⟩ := askStaple_of_settles hsettles k
    rw [hask]
    exact OcspCache.record_distinct h _ _ _ _ _

/-- What a staple changes leaves a checker alike, but for the key of its certificate. -/
theorem Confined.alikeBut {staple : Bytes} {c issuer : Certificate} {now : Nat}
    (h : Confined staple c issuer now k k') (hdistinct : k.ocsp.Distinct)
    (hdistinct' : k'.ocsp.Distinct) : AlikeBut now (.of c issuer) k k' where
  config := h.config
  localCrls := h.localCrls
  crls := h.crls
  ocsp :=
    { counters := h.counters
      answers := by
        intro other kept hother hfresh
        constructor
        · intro hmem
          by_contra hnot
          exact hother (h.added other kept hmem hnot).1
        · intro hmem
          by_contra hnot
          rcases h.dropped other kept hmem hnot with ⟨heq, -⟩ | hexpired
          · exact hother heq
          · rw [hfresh] at hexpired
            cases hexpired
      distinct := ⟨hdistinct, hdistinct'⟩ }

theorem check_distinct (h : k.ocsp.Distinct) (o : Outside) (enabled : Bool)
    (c issuer : Certificate) (staple : Option Bytes) (now : Nat) (calls : Calls) :
    (k.check o enabled c issuer staple now calls).2.1.ocsp.Distinct := by
  obtain ⟨source, hleaves⟩ := (check_course o enabled c issuer staple now k calls).leaves
  have hocsp : (afterOcsp o enabled c issuer now k calls).1.ocsp.Distinct := by
    cases enabled with
    | false => exact h
    | true => exact OcspCache.check_distinct h o k.config c issuer now calls
  generalize (k.check o enabled c issuer staple now calls).2 = after at hleaves
  cases source with
  | stapledOcsp =>
    obtain ⟨a, -, rfl⟩ := hleaves
    exact OcspCache.record_distinct h _ _ _ _ _
  | ocsp | localCrl | distributionPoint =>
    obtain rfl : after = _ := hleaves
    exact hocsp

end RevocationChecker

theorem PeerVerifier.checkLinks_distinct (o : Outside) (p : SecurityPolicy) (now : Nat)
    (staple : Option Bytes) (links : List Link) {k : RevocationChecker} (h : k.ocsp.Distinct)
    (calls : Calls) : (checkLinks o p now staple links k calls).2.1.ocsp.Distinct := by
  induction links generalizing staple k calls with
  | nil => exact h
  | cons link above ih =>
    have hfirst := RevocationChecker.check_distinct h o p.ocspEnabled link.certificate link.issuer
      staple now calls
    unfold checkLinks
    split
    · rename_i source k₁ calls₁ checked
      rw [checked] at hfirst
      exact ih none hfirst calls₁
    · rename_i failure k₁ calls₁ checked
      rw [checked] at hfirst
      exact hfirst

theorem PeerVerifier.check_distinct (o : Outside) (p : SecurityPolicy) (v : PeerVerifier)
    (role : PeerRole) (endEntity : Bytes) (intermediates : List Bytes) (staple : Option Bytes)
    (now : Nat) {k : RevocationChecker} (h : k.ocsp.Distinct) (calls : Calls) :
    (v.check o p role endEntity intermediates staple now k calls).2.1.ocsp.Distinct := by
  unfold PeerVerifier.check
  split
  · exact h
  · split
    · exact h
    · exact checkLinks_distinct o p now staple _ h calls

/-- **No checker keeps two answers under one key**, whatever uses it has seen. -/
theorem PeerStep.run_distinct (o : Outside) {state : RevocationState} (h : state.1.ocsp.Distinct)
    (steps : List PeerStep) : (run o state steps).1.ocsp.Distinct := by
  induction steps generalizing state with
  | nil => exact h
  | cons step steps ih =>
    refine ih ?_
    cases step with
    | verify v p use endEntity intermediates now =>
      simp only [apply, PeerVerifier.Use.run_eq]
      exact PeerVerifier.check_distinct o p v use.role endEntity intermediates use.staple now h _
    | cleanup now => exact h.sweep _ now

/-! ## 7. Confinement -/

/-- Two keys have one digest. -/
def DigestsCollide (b b' : Bytes) : Prop := b ≠ b' ∧ Sha256.digest b = Sha256.digest b'

/-- Two certificates differ in their serial numbers, or in the keys of their issuers. -/
def Link.Apart (link link' : Link) : Prop :=
  link.certificate.serial ≠ link'.certificate.serial ∨
    link.issuer.publicKey.key ≠ link'.issuer.publicKey.key

theorem Link.Apart.key_ne {link link' : Link} (h : link.Apart link')
    (hcollide : ¬ DigestsCollide link.issuer.publicKey.key link'.issuer.publicKey.key) :
    OcspKey.of link'.certificate link'.issuer ≠ .of link.certificate link.issuer := by
  intro heq
  obtain ⟨hdigest, hserial⟩ := OcspKey.mk.inj heq
  rcases h with hne | hne
  · exact hne hserial.symm
  · exact hcollide ⟨hne, hdigest.symm⟩

open RevocationChecker PeerVerifier in
/-- **A staple is confined.** One that is empty, rejected or undecided makes no difference to the
check of the end entity but for a reason that leads the others. One that decides is put among the
answers kept under the key of the end entity, and changes nothing else. So no other certificate of
the path, with another serial number or under another key, is checked by it: the answers that are
found for these were kept before or proved by replies, and the checks of all of them come to the
same as without it. -/
theorem PeerVerifier.staple_confined (o : Outside) (p : SecurityPolicy) (now : Nat)
    (staple : Bytes) (link : Link) (above : List Link) (k : RevocationChecker) (calls : Calls) :
    (∀ reasons, Mute link.certificate link.issuer now staple reasons →
      Led reasons
          (k.check o p.ocspEnabled link.certificate link.issuer (some staple) now calls).1
          (k.check o p.ocspEnabled link.certificate link.issuer none now calls).1 ∧
        (k.check o p.ocspEnabled link.certificate link.issuer (some staple) now calls).2 =
          (k.check o p.ocspEnabled link.certificate link.issuer none now calls).2) ∧
    ((∃ reasons, Mute link.certificate link.issuer now staple reasons) ∨
      ∃ a, ∃ s : CrlStatus,
        Settles staple link.certificate link.issuer now a ∧ a.status = s.asOcsp ∧
        k.check o p.ocspEnabled link.certificate link.issuer (some staple) now calls =
          (s.decision link.certificate .stapledOcsp,
            (askStaple link.certificate link.issuer (some staple) now k).2, calls)) ∧
    Confined staple link.certificate link.issuer now k
      (askStaple link.certificate link.issuer (some staple) now k).2 ∧
    (∀ below link' rest s kept, above = below ++ link' :: rest →
      Vouched o p now (some staple) (link :: below) (k, calls) s → link.Apart link' →
      s.1.ocsp.live? s.1.config.ocspLifetime now (.of link'.certificate link'.issuer) = some kept →
        DigestsCollide link.issuer.publicKey.key link'.issuer.publicKey.key ∨
        (OcspKey.of link'.certificate link'.issuer, kept) ∈ k.ocsp.entries ∨
        ProvedByReply o calls s.2 now (.of link'.certificate link'.issuer) kept) ∧
    (k.ocsp.Distinct →
      (∀ link' ∈ above, link.Apart link' ∧
        ¬ DigestsCollide link.issuer.publicKey.key link'.issuer.publicKey.key) →
      AlikeRuns now (.of link.certificate link.issuer) (checkLinks o p now none above k calls)
        (checkLinks o p now none above
          (askStaple link.certificate link.issuer (some staple) now k).2 calls)) ∧
    ∀ config files ders loaded start steps, load config files ders = .ok loaded →
      (PeerStep.run o (loaded, start) steps).1.ocsp.Distinct := by
  have hconfined := askStaple_confined staple link.certificate link.issuer now k
  refine ⟨fun reasons hmute => check_of_mute hmute o p.ocspEnabled k calls, ?_, hconfined, ?_, ?_,
    ?_⟩
  · rcases mute_or_settles staple link.certificate link.issuer now with hmute | ⟨a, hsettles⟩
    · exact .inl hmute
    · obtain ⟨s, hs, hcheck⟩ := check_of_settles hsettles o p.ocspEnabled k calls
      exact .inr ⟨a, s, hsettles, hs, hcheck⟩
  · intro below link' rest s kept _ hvouched hapart hlive
    by_cases hcollide : DigestsCollide link.issuer.publicKey.key link'.issuer.publicKey.key
    · exact .inl hcollide
    · rcases found_after_staple hvouched hlive with heq | hfound
      · exact absurd heq (hapart.key_ne hcollide)
      · exact .inr hfound
  · intro hdistinct hapart
    have hdistinct' := askStaple_distinct hdistinct staple link.certificate link.issuer now
    exact checkLinks_alike (hconfined.alikeBut hdistinct hdistinct')
      (fun link' hlink' => (hapart link' hlink').1.key_ne (hapart link' hlink').2) calls
  · intro config files ders loaded start steps hload
    obtain ⟨crls, -, rfl⟩ := load_eq_ok hload
    exact PeerStep.run_distinct o .empty steps

/-! ## 8. A staple that says good -/

namespace AnswerSample

/-- Another certificate of the root. -/
def bob : Certificate := { alice with serial := [6] }

/-- A checker that keeps nothing yet. -/
def fresh : RevocationChecker := ⟨.standard, [], .empty, .empty⟩

end AnswerSample

open AnswerSample RevocationChecker in
theorem PeerVerifier.staple_confined_to_alice :
    Settles (octets good) alice root now ⟨.good, some 1706745600⟩ ∧
      AlikeRuns now (.of alice root) (checkLinks silent ⟨true⟩ now none [⟨bob, root⟩] fresh [])
        (checkLinks silent ⟨true⟩ now none [⟨bob, root⟩]
          (askStaple alice root (some (octets good)) now fresh).2 []) := by
  obtain ⟨-, -, -, -, halike, -⟩ :=
    staple_confined silent ⟨true⟩ now (octets good) ⟨alice, root⟩ [⟨bob, root⟩] fresh []
  refine ⟨⟨by decide, evaluate_good, by decide⟩, halike .empty fun link hlink => ?_⟩
  obtain rfl := List.mem_singleton.mp hlink
  exact ⟨.inl (by decide), fun hcollide => hcollide.1 rfl⟩

end PeerTrust
