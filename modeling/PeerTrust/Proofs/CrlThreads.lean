import PeerTrust.Proofs.CacheContents
import PeerTrust.Proofs.Calls
import PeerTrust.Proofs.CrlAcceptance
import PeerTrust.Proofs.Threads

/-!
# Overlapping uses of kept CRLs

Checks and clean-ups share one cache. A check goes from location to location; at each it looks the
cache up, downloads what it does not find, and stores what gave an answer, in three atomic steps
between which other uses may do anything.

* `CrlCache.machine` says so;
* `CrlCache.Fetched` is why a CRL is kept; `CrlCache.Does` lists all that a step can do:
  `CrlCache.step_does`;
* `CrlCache.holds_run`: under every schedule, all that is kept was fetched;
* `CrlCache.check_yields`: a check that nothing interrupts does what `CrlCache.check` does;
  `CrlCache.exists_schedule`: uses one after the other are among the schedules.
-/

namespace PeerTrust

/-- A use of kept CRLs. -/
inductive CrlUse where
  | check (c issuer : Certificate) (now : Nat)
  | cleanup (now : Nat)

/-- How far a use got. -/
inductive CrlPhase where
  /-- These locations are left to go to; `failed` is what stands where none is left. -/
  | looking (failed : CrlCacheError) (urls : List String)
  /-- Nothing was found for a location. -/
  | fetching (url : String) (rest : List String)
  /-- A CRL was downloaded that gave an answer, and is not stored yet. -/
  | storing (url : String) (crl : Crl) (storedAt : Nat) (status : CrlStatus)
  | answered (result : Except CrlCacheError CrlStatus)
  | sweeping
  | swept

/-- What uses share: the cache, and the calls made so far. -/
structure CrlShared where
  cache : CrlCache
  calls : Calls

namespace CrlCache

variable (o : Outside) (cfg : RevocationConfig)

/-! ## 1. Atomic steps -/

/-- The phase in which a use starts. -/
def start : CrlUse → CrlPhase
  | .check c _ _ => .looking (.crl (.noDistributionPoint c.displayName)) c.crlUrls
  | .cleanup _ => .sweeping

/-- Takes the CRL that is kept for a location, or turns to the network. -/
def lookUp (c issuer : Certificate) (now : Nat) (url : String) (rest : List String)
    (s : CrlShared) : CrlPhase × CrlShared :=
  match s.cache.live? cfg.crlLifetime now url with
  | some kept =>
    match statusAt kept.value url c issuer now with
    | .error e => (.looking (.crl e) rest, { s with cache := s.cache.countHit })
    | .ok status => (.answered (.ok status), { s with cache := s.cache.countHit })
  | none => (.fetching url rest, { s with cache := s.cache.countMiss })

/-- Downloads the CRL at a location. -/
def fetch (c issuer : Certificate) (now : Nat) (url : String) (rest : List String)
    (s : CrlShared) : CrlPhase × CrlShared :=
  match download o cfg url s.calls with
  | (.error e, calls) => (.looking e rest, { s with calls })
  | (.ok crl, calls) =>
    match statusAt crl url c issuer now with
    | .error e => (.looking (.crl e) rest, { s with calls })
    | .ok status => (.storing url crl (o.clock calls) status, { s with calls })

/-- Stores a CRL. -/
def storeNow (url : String) (crl : Crl) (storedAt : Nat) (s : CrlShared) : CrlShared :=
  { s with
    cache := s.cache.store sweepLimit cfg.crlLifetime storedAt url ⟨crl, storedAt, crl.nextUpdate⟩ }

/-- Drops what has expired. -/
def cleanupNow (now : Nat) (s : CrlShared) : CrlShared :=
  { s with cache := cleanup cfg now s.cache }

/-- The atomic step of a use. -/
def step : CrlUse → CrlPhase → CrlShared → CrlPhase × CrlShared
  | .check _ _ _, .looking failed [], s => (.answered (.error failed), s)
  | .check c issuer now, .looking _ (url :: rest), s => lookUp cfg c issuer now url rest s
  | .check c issuer now, .fetching url rest, s => fetch o cfg c issuer now url rest s
  | .check _ _ _, .storing url crl storedAt status, s =>
    (.answered (.ok status), storeNow cfg url crl storedAt s)
  | .cleanup now, .sweeping, s => (.swept, cleanupNow cfg now s)
  | _, phase, s => (phase, s)

/-- Uses of kept CRLs that overlap. -/
def machine : Machine CrlShared CrlUse CrlPhase where
  start := start
  step := step o cfg

/-- What a schedule leaves behind that starts with an empty cache. -/
def run (moves : List (Machine.Move CrlUse)) : Machine.Pool CrlShared CrlUse CrlPhase :=
  (machine o cfg).run ⟨.empty, []⟩ moves

/-! ## 2. What a step can do -/

/-- Octets came back to a download from a location. -/
def RepliedAt (url : String) (calls : Calls) (content : Bytes) : Prop :=
  ∃ parsed earlier, Url.parse url = .ok parsed ∧
    earlier ++ [.get parsed cfg.crlTimeout] <+: calls ∧
    o.reply earlier (.get parsed cfg.crlTimeout) = .ok content

/-- Why a CRL is kept for a location, by a use. -/
structure Fetched (use : CrlUse) (calls : Calls) (url : String) (crl : Crl) : Prop where
  /-- It is what octets read as that came back to a download from there. -/
  replied : ∃ content, RepliedAt o cfg url calls content ∧ Crl.parse content = .ok crl
  /-- Its scope is known, is of direct CRLs, and names the location if it names any. -/
  scope : ∃ scope, crl.coverage = .within scope ∧ scope.indirect = false ∧
    (scope.distributionPoints = [] ∨ url ∈ scope.distributionPoints)
  /-- The use is a check of a certificate with this location. The CRL is of the issuer that the
  certificate names, and was signed by the one that the check was given. -/
  issued : ∃ c issuer now, use = .check c issuer now ∧ url ∈ c.crlUrls ∧ crl.issuer = c.issuer ∧
    issuer.publicKey.verify crl.signatureAlgorithm crl.signed crl.signature = .ok ()

/-- What holds of a use in a phase: a check goes only to the locations of the certificate, and what
it is about to store was fetched. -/
def Sound (use : CrlUse) (phase : CrlPhase) (s : CrlShared) : Prop :=
  match phase with
  | .looking _ urls => ∀ c issuer now, use = .check c issuer now → urls ⊆ c.crlUrls
  | .fetching url rest => ∀ c issuer now, use = .check c issuer now → url :: rest ⊆ c.crlUrls
  | .storing url crl _ _ => Fetched o cfg use s.calls url crl
  | _ => True

/-- All that a step can do. -/
inductive Does (use : CrlUse) (phase : CrlPhase) (s : CrlShared) : CrlPhase × CrlShared → Prop where
  /-- It leaves the CRLs alone. -/
  | quiet {phase' : CrlPhase} {s' : CrlShared} (entries : s'.cache.entries = s.cache.entries)
      (calls : s.calls <+: s'.calls) (next : Sound o cfg use phase' s') :
      Does use phase s (phase', s')
  /-- It stores the CRL that it was about to store, and is done. -/
  | stores {url : String} {crl : Crl} {storedAt : Nat} {status : CrlStatus}
      (phase_eq : phase = .storing url crl storedAt status) :
      Does use phase s (.answered (.ok status), storeNow cfg url crl storedAt s)
  /-- It is a clean-up. -/
  | sweeps {now : Nat} (use_eq : use = .cleanup now) :
      Does use phase s (.swept, cleanupNow cfg now s)

variable {o cfg} {use : CrlUse} {phase : CrlPhase} {s : CrlShared} {c issuer : Certificate}
  {now : Nat} {calls calls' : Calls} {url : String} {rest : List String} {crl : Crl}
  {status : CrlStatus}

theorem Fetched.mono (h : Fetched o cfg use calls url crl) (hcalls : calls <+: calls') :
    Fetched o cfg use calls' url crl := by
  obtain ⟨content, ⟨parsed, earlier, hparsed, hearlier, hreply⟩, hread⟩ := h.replied
  exact ⟨⟨content, ⟨parsed, earlier, hparsed, hearlier.trans hcalls, hreply⟩, hread⟩, h.scope,
    h.issued⟩

theorem Sound.mono {s' : CrlShared} (h : Sound o cfg use phase s) (hcalls : s.calls <+: s'.calls) :
    Sound o cfg use phase s' := by
  cases phase with
  | storing url crl storedAt status => exact Fetched.mono h hcalls
  | looking failed urls => exact h
  | fetching url rest => exact h
  | answered result => trivial
  | sweeping => trivial
  | swept => trivial

/-- What was downloaded and gave an answer was fetched. -/
theorem fetched_of_download (hurl : url ∈ c.crlUrls)
    (hdownload : download o cfg url calls = (.ok crl, calls'))
    (hstatus : statusAt crl url c issuer now = .ok status) :
    Fetched o cfg (.check c issuer now) calls' url crl := by
  obtain ⟨parsed, content, hparsed, hreply, hread, rfl⟩ := download_eq_ok_iff.mp hdownload
  obtain ⟨⟨scope, hwithin, hserved⟩, hattests⟩ := statusAt_eq_ok_iff.mp hstatus
  obtain ⟨scope', hwithin', -, hdirect, -⟩ := hattests.scope
  obtain rfl : scope = scope' := Crl.Coverage.within.inj (hwithin.symm.trans hwithin')
  exact ⟨⟨content, ⟨parsed, calls, hparsed, List.prefix_rfl, hreply⟩, hread⟩,
    ⟨scope, hwithin, hdirect, hserved⟩,
    ⟨c, issuer, now, rfl, hurl, hattests.named, hattests.signed⟩⟩

theorem sound_rest (hurls : url :: rest ⊆ c.crlUrls) (failed : CrlCacheError) (s : CrlShared) :
    Sound o cfg (.check c issuer now) (.looking failed rest) s := by
  rintro c' issuer' now' ⟨⟩
  exact List.Subset.trans (List.subset_cons_self url rest) hurls

theorem lookUp_does (hurls : url :: rest ⊆ c.crlUrls) :
    Does o cfg (.check c issuer now) phase s (lookUp cfg c issuer now url rest s) := by
  unfold lookUp
  split
  · split
    · exact .quiet rfl List.prefix_rfl (sound_rest hurls _ _)
    · exact .quiet rfl List.prefix_rfl trivial
  · refine .quiet rfl List.prefix_rfl ?_
    rintro c' issuer' now' ⟨⟩
    exact hurls

theorem fetch_does (hurls : url :: rest ⊆ c.crlUrls) :
    Does o cfg (.check c issuer now) phase s (fetch o cfg c issuer now url rest s) := by
  have hcalls : s.calls.ExtendedBy (fun _ => True) (download o cfg url s.calls).2 :=
    download_calls o cfg s.calls fun _ _ => trivial
  unfold fetch
  split
  · rename_i hdownload
    rw [hdownload] at hcalls
    exact .quiet rfl hcalls.isPrefix (sound_rest hurls _ _)
  · rename_i crl calls hdownload
    rw [hdownload] at hcalls
    split
    · exact .quiet rfl hcalls.isPrefix (sound_rest hurls _ _)
    · rename_i hstatus
      exact .quiet rfl hcalls.isPrefix
        (fetched_of_download (hurls List.mem_cons_self) hdownload hstatus)

/-- **A step does nothing else.** -/
theorem step_does (hsound : Sound o cfg use phase s) :
    Does o cfg use phase s (step o cfg use phase s) := by
  unfold step
  split
  · exact .quiet rfl List.prefix_rfl trivial
  · exact lookUp_does (hsound _ _ _ rfl)
  · exact fetch_does (hsound _ _ _ rfl)
  · exact .stores rfl
  · exact .sweeps rfl
  · exact .quiet rfl List.prefix_rfl hsound

theorem Does.calls_prefix {r : CrlPhase × CrlShared} (h : Does o cfg use phase s r) :
    s.calls <+: r.2.calls := by
  cases h with
  | quiet _ calls _ => exact calls
  | stores _ => exact List.prefix_rfl
  | sweeps _ => exact List.prefix_rfl

/-! ## 3. What holds under every schedule -/

variable (o cfg) in
/-- All that is kept was fetched by a use that started. -/
def AllFetched (uses : List CrlUse) (s : CrlShared) : Prop :=
  s.cache.Forall fun url kept => ∃ use ∈ uses, Fetched o cfg use s.calls url kept.value

theorem AllFetched.mono {uses : List CrlUse} {s' : CrlShared} (h : AllFetched o cfg uses s)
    (hentries : s'.cache.entries = s.cache.entries) (hcalls : s.calls <+: s'.calls) :
    AllFetched o cfg uses s' := by
  intro url kept hmem
  rw [hentries] at hmem
  obtain ⟨use, huse, hfetched⟩ := h url kept hmem
  exact ⟨use, huse, hfetched.mono hcalls⟩

/-- The atomic steps keep that. -/
theorem invariant : (machine o cfg).Invariant (AllFetched o cfg) (Sound o cfg) where
  launch use h url kept hmem :=
    let ⟨use', huse', hfetched⟩ := h url kept hmem
    ⟨use', List.mem_append_left _ huse', hfetched⟩
  start use _ := by
    cases use with
    | check c issuer now =>
      rintro c' issuer' now' ⟨⟩
      exact List.Subset.refl _
    | cleanup now => trivial
  step {uses use phase s} huse hshared hsound := by
    have hdoes : Does o cfg use phase s (step o cfg use phase s) := step_does hsound
    change AllFetched o cfg uses (step o cfg use phase s).2 ∧
      Sound o cfg use (step o cfg use phase s).1 (step o cfg use phase s).2
    generalize step o cfg use phase s = r at hdoes
    cases hdoes with
    | quiet entries calls next => exact ⟨hshared.mono entries calls, next⟩
    | stores phase_eq =>
      subst phase_eq
      have hfetched : Fetched o cfg use s.calls _ _ := hsound
      exact ⟨Cache.Forall.store hshared ⟨use, huse, hfetched⟩ _ _ _, trivial⟩
    | sweeps _ => exact ⟨Cache.Forall.sweep hshared _ _, trivial⟩
  stable hsound hsound' := by
    have hdoes : Does o cfg _ _ _ (step o cfg _ _ _) := step_does hsound'
    exact hsound.mono hdoes.calls_prefix

/-- **All that is kept was fetched, under every schedule.** -/
theorem holds_run (o : Outside) (cfg : RevocationConfig) (moves : List (Machine.Move CrlUse)) :
    (run o cfg moves).Holds (AllFetched o cfg) (Sound o cfg) :=
  have hstart : AllFetched o cfg [] ⟨.empty, []⟩ := Cache.Forall.empty _
  invariant.run hstart moves

/-! ## 4. Uses that nothing interrupts -/

variable (o cfg) in
/-- A use that nothing interrupts gets from a phase to a result, and leaves a cache and calls. -/
def Yields (use : CrlUse) (phase : CrlPhase) (s : CrlShared)
    (r : Except CrlCacheError CrlStatus × CrlCache × Calls) : Prop :=
  (machine o cfg).Alone use (phase, s) (.answered r.1, ⟨r.2.1, r.2.2⟩)

theorem Yields.step {r : Except CrlCacheError CrlStatus × CrlCache × Calls} {phase' : CrlPhase}
    {s' : CrlShared} (hstep : CrlCache.step o cfg use phase s = (phase', s'))
    (h : Yields o cfg use phase' s' r) : Yields o cfg use phase s r :=
  Machine.Alone.step hstep h

/-- What the locations that are left lead to. -/
theorem looking_yields (failed : CrlCacheError) (urls : List String) (s : CrlShared) :
    Yields o cfg (.check c issuer now) (.looking failed urls) s
      (checkEach o cfg c issuer now failed urls s.cache s.calls) := by
  -- one location after the other, as `checkEach` goes
  induction urls generalizing failed s with
  | nil => exact .step rfl (.refl _ _ _)
  | cons url rest ih =>
    unfold checkEach checkAt
    cases hlive : s.cache.live? cfg.crlLifetime now url with
    | some kept =>
      cases hstatus : statusAt kept.value url c issuer now with
      | error e =>
        have hstep : step o cfg (.check c issuer now) (.looking failed (url :: rest)) s =
            (.looking (.crl e) rest, { s with cache := s.cache.countHit }) := by
          simp only [step, lookUp, hlive, hstatus]
        simp only [hstatus, mapError_error]
        exact .step hstep (ih (.crl e) { s with cache := s.cache.countHit })
      | ok status =>
        have hstep : step o cfg (.check c issuer now) (.looking failed (url :: rest)) s =
            (.answered (.ok status), { s with cache := s.cache.countHit }) := by
          simp only [step, lookUp, hlive, hstatus]
        simp only [hstatus, mapError_ok]
        exact .step hstep (.refl _ _ _)
    | none =>
      have hmiss : step o cfg (.check c issuer now) (.looking failed (url :: rest)) s =
          (.fetching url rest, { s with cache := s.cache.countMiss }) := by
        simp only [step, lookUp, hlive]
      refine .step hmiss ?_
      rcases hdownload : download o cfg url s.calls with ⟨e | crl, calls⟩
      · have hstep : step o cfg (.check c issuer now) (.fetching url rest)
            { s with cache := s.cache.countMiss } =
              (.looking e rest, ⟨s.cache.countMiss, calls⟩) := by
          simp only [step, fetch, hdownload]
        exact .step hstep (ih e ⟨s.cache.countMiss, calls⟩)
      · cases hstatus : statusAt crl url c issuer now with
        | error e =>
          have hstep : step o cfg (.check c issuer now) (.fetching url rest)
              { s with cache := s.cache.countMiss } =
                (.looking (.crl e) rest, ⟨s.cache.countMiss, calls⟩) := by
            simp only [step, fetch, hdownload, hstatus]
          simp only [hstatus]
          exact .step hstep (ih (.crl e) ⟨s.cache.countMiss, calls⟩)
        | ok status =>
          have hstep : step o cfg (.check c issuer now) (.fetching url rest)
              { s with cache := s.cache.countMiss } =
                (.storing url crl (o.clock calls) status, ⟨s.cache.countMiss, calls⟩) := by
            simp only [step, fetch, hdownload, hstatus]
          simp only [hstatus]
          exact .step hstep (.step rfl (.refl _ _ _))

variable (o cfg) in
/-- **A check that nothing interrupts is `CrlCache.check`.** -/
theorem check_yields (c issuer : Certificate) (now : Nat) (s : CrlShared) :
    Yields o cfg (.check c issuer now) (start (.check c issuer now)) s
      (check o cfg c issuer now s.cache s.calls) :=
  looking_yields _ c.crlUrls s

variable (o cfg) in
/-- What a use leaves of a cache and calls if it is the only one. -/
def applyUse (state : CrlCache × Calls) : CrlUse → CrlCache × Calls
  | .check c issuer now => (check o cfg c issuer now state.1 state.2).2
  | .cleanup now => (cleanup cfg now state.1, state.2)

/-- **Uses one after the other are among the schedules.** -/
theorem exists_schedule (o : Outside) (cfg : RevocationConfig) (uses : List CrlUse) :
    ∃ moves, ((run o cfg moves).shared.cache, (run o cfg moves).shared.calls) =
      uses.foldl (applyUse o cfg) (.empty, []) := by
  have hseen : ∀ use s, ∃ phase s', (machine o cfg).Alone use (start use, s) (phase, s') ∧
      (s'.cache, s'.calls) = applyUse o cfg (s.cache, s.calls) use := by
    intro use s
    cases use with
    | check c issuer now => exact ⟨_, _, check_yields o cfg c issuer now s, rfl⟩
    | cleanup now => exact ⟨_, _, .step rfl (.refl _ _ _), rfl⟩
  exact Machine.exists_schedule hseen ⟨.empty, []⟩ uses

end CrlCache

end PeerTrust
