import PeerTrust.Proofs.AnswerLog
import PeerTrust.Proofs.Calls
import PeerTrust.Proofs.Threads

/-!
# Overlapping uses of kept answers

Checks, staples and clean-ups share one cache. A use looks the cache up, puts an answer into it, or
sweeps it, each in one atomic step; between two such steps other uses may do anything.

* `OcspCache.machine` says so, with a log of what happened to the answers kept;
* `OcspCache.Does` lists all that a step can do: `OcspCache.step_does`;
* `OcspCache.Logged` and `OcspCache.Accepted` are what holds under every schedule:
  `OcspCache.holds_run`;
* `OcspCache.check_yields`, `OcspCache.staple_yields`: a use that nothing interrupts does what
  `OcspCache.check` and `OcspCache.takeStapled` do; `OcspCache.exists_schedule`: uses one after the
  other are among the schedules.
-/

namespace PeerTrust

/-- A use of kept answers. -/
inductive OcspUse where
  | check (c issuer : Certificate) (now : Nat)
  | staple (response : Bytes) (c issuer : Certificate) (now : Nat)
  | cleanup (now : Nat)

/-- How far a use got. -/
inductive OcspPhase where
  | starting
  /-- Nothing was found, and these responders are left to ask. -/
  | asking (failed : OcspCacheError) (urls : List Url)
  /-- An answer was accepted, and is not recorded yet. -/
  | recording (a : RecordedAnswer)
  | answered (result : Except OcspCacheError Ocsp.Status)
  | swept

/-- What uses share: the cache, the calls made so far, and what happened to the answers kept. -/
structure OcspShared where
  cache : OcspCache
  calls : Calls
  log : List OcspEvent

namespace OcspCache

variable (o : Outside) (cfg : RevocationConfig)

/-! ## 1. Atomic steps -/

/-- Takes what is kept, or turns to the responders. -/
def lookUp (c issuer : Certificate) (now : Nat) (s : OcspShared) : OcspPhase × OcspShared :=
  match s.cache.live? cfg.ocspLifetime now (.of c issuer) with
  | some kept => (.answered (.ok kept.value), { s with cache := s.cache.countHit })
  | none =>
    match responders cfg c with
    | .error e => (.answered (.error (.ocsp e)), { s with cache := s.cache.countMiss })
    | .ok urls =>
      (.asking (.ocsp (.noResponder c.displayName)) urls, { s with cache := s.cache.countMiss })

/-- Where an answer leads that was accepted: only one that is definite is recorded. -/
def accept (c issuer : Certificate) (now : Nat) (a : Ocsp.Answer) : OcspPhase :=
  if a.status = .unknown then .answered (.ok .unknown) else .recording ⟨c, issuer, now, a⟩

/-- Asks the next responder. -/
def askNext (c issuer : Certificate) (now : Nat) (failed : OcspCacheError) :
    List Url → OcspShared → OcspPhase × OcspShared
  | [], s => (.answered (.error failed), s)
  | url :: urls, s =>
    match query o cfg url c issuer now s.calls with
    | (.ok a, calls) => (accept c issuer now a, { s with calls })
    | (.error e, calls) => (.asking e urls, { s with calls })

/-- Evaluates an answer that was presented. -/
def present (response : Bytes) (c issuer : Certificate) (now : Nat) : OcspPhase :=
  match Ocsp.evaluate response c issuer none now with
  | .error e => .answered (.error (.ocsp e))
  | .ok a => accept c issuer now a

/-- What recording an answer means for those kept: it is put among them and, if they have become too
many, those that expired are dropped. -/
def recordEvents (a : RecordedAnswer) (cache : OcspCache) : List OcspEvent :=
  if sweepLimit < (cache.insert a.key a.kept).size then [.recorded a, .swept a.now]
  else [.recorded a]

/-- Records an answer. -/
def recordNow (a : RecordedAnswer) (s : OcspShared) : OcspShared :=
  { s with
    cache := record cfg a.c a.issuer a.now a.answer s.cache
    log := s.log ++ recordEvents a s.cache }

/-- Drops what has expired. -/
def cleanupNow (now : Nat) (s : OcspShared) : OcspShared :=
  { s with cache := cleanup cfg now s.cache, log := s.log ++ [.swept now] }

/-- The atomic step of a use. -/
def step : OcspUse → OcspPhase → OcspShared → OcspPhase × OcspShared
  | .check c issuer now, .starting, s => lookUp cfg c issuer now s
  | .check c issuer now, .asking failed urls, s => askNext o cfg c issuer now failed urls s
  | .staple response c issuer now, .starting, s => (present response c issuer now, s)
  | .cleanup now, .starting, s => (.swept, cleanupNow cfg now s)
  | _, .recording a, s => (.answered (.ok a.answer.status), recordNow cfg a s)
  | _, phase, s => (phase, s)

/-- Uses of kept answers that overlap. -/
def machine : Machine OcspShared OcspUse OcspPhase where
  start _ := .starting
  step := step o cfg

/-- What a schedule leaves behind that starts with an empty cache. -/
def run (moves : List (Machine.Move OcspUse)) : Machine.Pool OcspShared OcspUse OcspPhase :=
  (machine o cfg).run ⟨.empty, [], []⟩ moves

/-! ## 2. What a step can do -/

/-- Where an answer comes from that was recorded for a use: a responder that was asked replied with
it, or a peer presented it. It was accepted, and it is definite. -/
structure Origin (use : OcspUse) (calls : Calls) (a : RecordedAnswer) : Prop where
  definite : a.answer.status ≠ .unknown
  accepted : (use = .check a.c a.issuer a.now ∧ ∃ response nonce, o.Replied [] calls response ∧
      Ocsp.evaluate response a.c a.issuer (some nonce) a.now = .ok a.answer) ∨
    ∃ response, use = .staple response a.c a.issuer a.now ∧
      Ocsp.evaluate response a.c a.issuer none a.now = .ok a.answer

/-- All that a step can do. -/
inductive Does (use : OcspUse) (phase : OcspPhase) (s : OcspShared) :
    OcspPhase × OcspShared → Prop where
  /-- It leaves the answers alone. If it leads to recording one, that one was accepted. -/
  | quiet {phase' : OcspPhase} {s' : OcspShared} (entries : s'.cache.entries = s.cache.entries)
      (log : s'.log = s.log) (calls : s.calls <+: s'.calls)
      (next : ∀ a, phase' = .recording a → Origin o use s'.calls a) :
      Does use phase s (phase', s')
  /-- It records the answer that it was about to record, and is done. -/
  | records {a : RecordedAnswer} (phase_eq : phase = .recording a) :
      Does use phase s (.answered (.ok a.answer.status), recordNow cfg a s)
  /-- It is a clean-up. -/
  | sweeps {now : Nat} (use_eq : use = .cleanup now) :
      Does use phase s (.swept, cleanupNow cfg now s)

variable {o cfg} {use : OcspUse} {phase : OcspPhase} {s : OcspShared} {c issuer : Certificate}
  {now : Nat} {calls calls' : Calls} {a : RecordedAnswer}

theorem Origin.mono (h : Origin o use calls a) (hcalls : calls <+: calls') :
    Origin o use calls' a := by
  refine ⟨h.definite, ?_⟩
  rcases h.accepted with ⟨huse, response, nonce, hreplied, heval⟩ | hstaple
  · exact .inl ⟨huse, response, nonce, hreplied.mono List.prefix_rfl hcalls, heval⟩
  · exact .inr hstaple

theorem accept_eq_recording {answer : Ocsp.Answer} (h : accept c issuer now answer = .recording a) :
    answer.status ≠ .unknown ∧ a = ⟨c, issuer, now, answer⟩ := by
  unfold accept at h
  split at h
  · cases h
  · rename_i hdefinite
    cases h
    exact ⟨hdefinite, rfl⟩

theorem lookUp_does : Does o cfg (.check c issuer now) phase s (lookUp cfg c issuer now s) := by
  unfold lookUp
  split
  · exact .quiet rfl rfl List.prefix_rfl fun _ h => nomatch h
  · split
    · exact .quiet rfl rfl List.prefix_rfl fun _ h => nomatch h
    · exact .quiet rfl rfl List.prefix_rfl fun _ h => nomatch h

theorem askNext_does {failed : OcspCacheError} {urls : List Url} :
    Does o cfg (.check c issuer now) phase s (askNext o cfg c issuer now failed urls s) := by
  cases urls with
  | nil => exact .quiet rfl rfl List.prefix_rfl fun _ h => nomatch h
  | cons url urls =>
    have hcalls : s.calls.ExtendedBy (fun _ => True) (query o cfg url c issuer now s.calls).2 :=
      query_calls o cfg c issuer now s.calls fun _ => trivial
    simp only [askNext]
    split
    · rename_i answer calls hquery
      rw [hquery] at hcalls
      refine .quiet rfl rfl hcalls.isPrefix fun a ha => ?_
      obtain ⟨hdefinite, rfl⟩ := accept_eq_recording ha
      obtain ⟨response, hreplied, heval⟩ := query_eq_ok hquery
      exact ⟨hdefinite, .inl ⟨rfl, response, _,
        hreplied.mono List.nil_prefix List.prefix_rfl, heval⟩⟩
    · rename_i e calls hquery
      rw [hquery] at hcalls
      exact .quiet rfl rfl hcalls.isPrefix fun _ h => nomatch h

theorem present_does {response : Bytes} :
    Does o cfg (.staple response c issuer now) phase s (present response c issuer now, s) := by
  refine .quiet rfl rfl List.prefix_rfl fun a ha => ?_
  unfold present at ha
  split at ha
  · cases ha
  · rename_i heval
    obtain ⟨hdefinite, rfl⟩ := accept_eq_recording ha
    exact ⟨hdefinite, .inr ⟨response, rfl, heval⟩⟩

variable (o) in
/-- What a use is about to record was accepted for it. -/
def Accepted (use : OcspUse) (phase : OcspPhase) (s : OcspShared) : Prop :=
  ∀ a, phase = .recording a → Origin o use s.calls a

/-- **A step does nothing else.** -/
theorem step_does (hlocal : Accepted o use phase s) :
    Does o cfg use phase s (step o cfg use phase s) := by
  unfold step
  split
  · exact lookUp_does
  · exact askNext_does
  · exact present_does
  · exact .sweeps rfl
  · exact .records rfl
  · exact .quiet rfl rfl List.prefix_rfl hlocal

theorem Does.calls_prefix {r : OcspPhase × OcspShared} (h : Does o cfg use phase s r) :
    s.calls <+: r.2.calls := by
  cases h with
  | quiet _ _ calls _ => exact calls
  | records _ => exact List.prefix_rfl
  | sweeps _ => exact List.prefix_rfl

/-! ## 3. What holds under every schedule -/

theorem apply_entries_congr {lifetime : Nat} {cache cache' : OcspCache}
    (h : cache.entries = cache'.entries) (e : OcspEvent) :
    (e.apply lifetime cache).entries = (e.apply lifetime cache').entries := by
  cases e with
  | recorded a => simp only [OcspEvent.apply, Cache.insert, h]
  | swept now => simp only [OcspEvent.apply, Cache.sweep, h]

theorem foldl_apply_entries_congr {lifetime : Nat} {cache cache' : OcspCache}
    (h : cache.entries = cache'.entries) (events : List OcspEvent) :
    (events.foldl (OcspEvent.apply lifetime) cache).entries =
      (events.foldl (OcspEvent.apply lifetime) cache').entries := by
  induction events generalizing cache cache' with
  | nil => exact h
  | cons e events ih => exact ih (apply_entries_congr h e)

/-- Recording an answer is what its events say. -/
theorem record_eq_foldl_apply (cfg : RevocationConfig) (hdefinite : a.answer.status ≠ .unknown)
    (cache : OcspCache) : record cfg a.c a.issuer a.now a.answer cache =
      (recordEvents a cache).foldl (OcspEvent.apply cfg.ocspLifetime) cache := by
  unfold record recordEvents
  rw [if_neg hdefinite]
  change (if sweepLimit < (cache.insert a.key a.kept).size then
      (cache.insert a.key a.kept).sweep cfg.ocspLifetime a.now else cache.insert a.key a.kept) = _
  split
  · rfl
  · rfl

variable (o cfg) in
/-- The cache is what its log says, and whatever was recorded comes from a use that started. -/
structure Logged (uses : List OcspUse) (s : OcspShared) : Prop where
  entries : s.cache.entries = (OcspEvent.replay cfg.ocspLifetime s.log).entries
  origins : ∀ a, .recorded a ∈ s.log → ∃ use ∈ uses, Origin o use s.calls a

theorem mem_recordEvents {cache : OcspCache} {a' : RecordedAnswer}
    (h : .recorded a' ∈ recordEvents a cache) : a' = a := by
  unfold recordEvents at h
  split at h
  · simpa using h
  · simpa using h

theorem Logged.recordNow {uses : List OcspUse} (h : Logged o cfg uses s) (huse : use ∈ uses)
    (horigin : Origin o use s.calls a) : Logged o cfg uses (recordNow cfg a s) where
  entries := by
    change (record cfg a.c a.issuer a.now a.answer s.cache).entries =
      (OcspEvent.replay cfg.ocspLifetime (s.log ++ recordEvents a s.cache)).entries
    rw [record_eq_foldl_apply cfg horigin.definite, OcspEvent.replay, List.foldl_append]
    exact foldl_apply_entries_congr h.entries _
  origins a' hmem := by
    rcases List.mem_append.mp hmem with hmem | hmem
    · exact h.origins a' hmem
    · rw [mem_recordEvents hmem]
      exact ⟨use, huse, horigin⟩

theorem Logged.cleanupNow {uses : List OcspUse} (h : Logged o cfg uses s) (now : Nat) :
    Logged o cfg uses (cleanupNow cfg now s) where
  entries := by
    change (s.cache.sweep cfg.ocspLifetime now).entries =
      (OcspEvent.replay cfg.ocspLifetime (s.log ++ [.swept now])).entries
    rw [OcspEvent.replay_concat]
    exact apply_entries_congr h.entries (.swept now)
  origins a' hmem := h.origins a' (by simpa [OcspCache.cleanupNow] using hmem)

/-- The atomic steps keep the log right, and what is about to be recorded is what was accepted. -/
theorem invariant : (machine o cfg).Invariant (Logged o cfg) (Accepted o) where
  launch use h :=
    ⟨h.entries, fun a hmem =>
      let ⟨use', huse', horigin⟩ := h.origins a hmem
      ⟨use', List.mem_append_left _ huse', horigin⟩⟩
  start _ _ _ h := nomatch h
  step {uses use phase s} huse hshared hlocal := by
    have hdoes : Does o cfg use phase s (step o cfg use phase s) := step_does hlocal
    change Logged o cfg uses (step o cfg use phase s).2 ∧
      Accepted o use (step o cfg use phase s).1 (step o cfg use phase s).2
    generalize step o cfg use phase s = r at hdoes
    cases hdoes with
    | quiet entries log calls next =>
      refine ⟨⟨?_, fun a hmem => ?_⟩, next⟩
      · rw [entries, log]
        exact hshared.entries
      · rw [log] at hmem
        obtain ⟨use', huse', horigin⟩ := hshared.origins a hmem
        exact ⟨use', huse', horigin.mono calls⟩
    | records phase_eq =>
      exact ⟨hshared.recordNow huse (hlocal _ phase_eq), fun _ h => nomatch h⟩
    | sweeps _ => exact ⟨hshared.cleanupNow _, fun _ h => nomatch h⟩
  stable hlocal hlocal' a ha := by
    have hdoes : Does o cfg _ _ _ (step o cfg _ _ _) := step_does hlocal'
    exact (hlocal a ha).mono hdoes.calls_prefix

/-- **The log is right under every schedule, and only what was accepted is recorded.** -/
theorem holds_run (o : Outside) (cfg : RevocationConfig) (moves : List (Machine.Move OcspUse)) :
    (run o cfg moves).Holds (Logged o cfg) (Accepted o) :=
  invariant.run ⟨rfl, fun _ h => absurd h List.not_mem_nil⟩ moves

/-! ## 4. Uses that nothing interrupts -/

variable (o cfg) in
/-- A use that nothing interrupts gets from a phase to a result, and leaves a cache and calls. -/
def Yields (use : OcspUse) (phase : OcspPhase) (s : OcspShared)
    (r : Except OcspCacheError Ocsp.Status × OcspCache × Calls) : Prop :=
  ∃ log, (machine o cfg).Alone use (phase, s) (.answered r.1, ⟨r.2.1, r.2.2, log⟩)

theorem Yields.refl (use : OcspUse) (s : OcspShared) (result : Except OcspCacheError Ocsp.Status) :
    Yields o cfg use (.answered result) s (result, s.cache, s.calls) :=
  ⟨s.log, .refl _ _ _⟩

theorem Yields.step {r : Except OcspCacheError Ocsp.Status × OcspCache × Calls} {phase' : OcspPhase}
    {s' : OcspShared} (hstep : OcspCache.step o cfg use phase s = (phase', s'))
    (h : Yields o cfg use phase' s' r) : Yields o cfg use phase s r := by
  obtain ⟨log, halone⟩ := h
  exact ⟨log, .step hstep halone⟩

theorem recording_yields (use : OcspUse) (s : OcspShared) (a : RecordedAnswer) :
    Yields o cfg use (.recording a) s (.ok a.answer.status,
      record cfg a.c a.issuer a.now a.answer s.cache, s.calls) := by
  have hstep : step o cfg use (.recording a) s =
      (.answered (.ok a.answer.status), recordNow cfg a s) := by
    cases use <;> rfl
  exact .step hstep (.refl use (recordNow cfg a s) _)

/-- An accepted answer is recorded, if it is definite, and is the result. -/
theorem accept_yields (use : OcspUse) (s : OcspShared) (c issuer : Certificate) (now : Nat)
    (a : Ocsp.Answer) : Yields o cfg use (accept c issuer now a) s
      (.ok a.status, record cfg c issuer now a s.cache, s.calls) := by
  unfold accept
  split
  · rename_i hunknown
    rw [hunknown, record, if_pos hunknown]
    exact .refl use s _
  · exact recording_yields use s ⟨c, issuer, now, a⟩

/-- What the answers of responders lead to. -/
theorem asking_yields (failed : OcspCacheError) (urls : List Url) (s : OcspShared) :
    Yields o cfg (.check c issuer now) (.asking failed urls) s
      (match queryEach o cfg c issuer now failed urls s.calls with
        | (.error e, calls) => (.error e, s.cache, calls)
        | (.ok a, calls) => (.ok a.status, record cfg c issuer now a s.cache, calls)) := by
  induction urls generalizing failed s with
  | nil => exact .step rfl (.refl _ s (.error failed))
  | cons url urls ih =>
    cases hquery : query o cfg url c issuer now s.calls with
    | mk result calls =>
      cases result with
      | error e =>
        have hstep : step o cfg (.check c issuer now) (.asking failed (url :: urls)) s =
            (.asking e urls, { s with calls }) := by
          simp only [step, askNext, hquery]
        simp only [queryEach, hquery]
        exact .step hstep (ih e { s with calls })
      | ok a =>
        have hstep : step o cfg (.check c issuer now) (.asking failed (url :: urls)) s =
            (accept c issuer now a, { s with calls }) := by
          simp only [step, askNext, hquery]
        simp only [queryEach, hquery]
        exact .step hstep (accept_yields _ { s with calls } c issuer now a)

variable (o cfg) in
/-- **A check that nothing interrupts is `OcspCache.check`.** -/
theorem check_yields (c issuer : Certificate) (now : Nat) (s : OcspShared) :
    Yields o cfg (.check c issuer now) .starting s (check o cfg c issuer now s.cache s.calls) := by
  unfold check
  split
  · rename_i kept hlive
    have hstep : step o cfg (.check c issuer now) .starting s =
        (.answered (.ok kept.value), { s with cache := s.cache.countHit }) := by
      simp only [step, lookUp, hlive]
    exact .step hstep (.refl _ _ _)
  · rename_i hlive
    split
    · rename_i e hresponders
      have hstep : step o cfg (.check c issuer now) .starting s =
          (.answered (.error (.ocsp e)), { s with cache := s.cache.countMiss }) := by
        simp only [step, lookUp, hlive, hresponders]
      exact .step hstep (.refl _ _ _)
    · rename_i urls hresponders
      have hstep : step o cfg (.check c issuer now) .starting s =
          (.asking (.ocsp (.noResponder c.displayName)) urls,
            { s with cache := s.cache.countMiss }) := by
        simp only [step, lookUp, hlive, hresponders]
      exact .step hstep (asking_yields _ urls { s with cache := s.cache.countMiss })

variable (o cfg) in
/-- **A staple that nothing interrupts is `OcspCache.takeStapled`.** -/
theorem staple_yields (response : Bytes) (c issuer : Certificate) (now : Nat) (s : OcspShared) :
    Yields o cfg (.staple response c issuer now) .starting s
      ((takeStapled cfg response c issuer now s.cache).1.mapError .ocsp,
        (takeStapled cfg response c issuer now s.cache).2, s.calls) := by
  cases heval : Ocsp.evaluate response c issuer none now with
  | error e =>
    have hstep : step o cfg (.staple response c issuer now) .starting s =
        (.answered (.error (.ocsp e)), s) := by
      simp only [step, present, heval]
    simp only [takeStapled, heval, takeAnswer]
    exact .step hstep (.refl _ s _)
  | ok a =>
    have hstep : step o cfg (.staple response c issuer now) .starting s =
        (accept c issuer now a, s) := by
      simp only [step, present, heval]
    simp only [takeStapled, heval, takeAnswer]
    exact .step hstep (accept_yields _ s c issuer now a)

variable (o cfg) in
/-- What a use leaves of a cache and calls if it is the only one. -/
def applyUse (state : OcspCache × Calls) : OcspUse → OcspCache × Calls
  | .check c issuer now => (check o cfg c issuer now state.1 state.2).2
  | .staple response c issuer now => ((takeStapled cfg response c issuer now state.1).2, state.2)
  | .cleanup now => (cleanup cfg now state.1, state.2)

/-- **Uses one after the other are among the schedules.** -/
theorem exists_schedule (o : Outside) (cfg : RevocationConfig) (uses : List OcspUse) :
    ∃ moves, ((run o cfg moves).shared.cache, (run o cfg moves).shared.calls) =
      uses.foldl (applyUse o cfg) (.empty, []) := by
  have hseen : ∀ use s, ∃ phase s', (machine o cfg).Alone use (.starting, s) (phase, s') ∧
      (s'.cache, s'.calls) = applyUse o cfg (s.cache, s.calls) use := by
    intro use s
    cases use with
    | check c issuer now =>
      obtain ⟨log, halone⟩ := check_yields o cfg c issuer now s
      exact ⟨_, _, halone, rfl⟩
    | staple response c issuer now =>
      obtain ⟨log, halone⟩ := staple_yields o cfg response c issuer now s
      exact ⟨_, _, halone, rfl⟩
    | cleanup now => exact ⟨_, _, .step rfl (.refl _ _ _), rfl⟩
  exact Machine.exists_schedule hseen ⟨.empty, [], []⟩ uses

end OcspCache

end PeerTrust
