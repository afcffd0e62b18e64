import PeerTrust.Proofs.KeptCrls

/-!
# Kept CRLs change no answer

Where servers of CRLs reply to a question always the same, whatever was asked before, it does not
matter to a check what is kept.

* `Outside.Steady` says that of servers, `CrlCache.Serves` which CRL a location then has;
* `CrlCache.answer` is what a check comes to without any cache;
* `CrlCache.LeadsTo`: a check, wherever it got, still comes to that answer. Every atomic step keeps
  it as long as all that is kept is what its location serves, and keeps the latter too:
  `CrlCache.serves_invariant`;
* `CrlCache.check_transparent`: so after any uses, whether they overlap or not, a check says what
  it says where nothing is kept.
-/

namespace PeerTrust

/-- Downloads bring the same whatever was asked before. -/
def Outside.Steady (o : Outside) : Prop :=
  ∀ url timeout calls calls', o.reply calls (.get url timeout) = o.reply calls' (.get url timeout)

namespace CrlCache

variable (o : Outside) (cfg : RevocationConfig)

/-! ## 1. The answer without a cache -/

/-- A location has a CRL, whatever was asked before. -/
def Serves (url : String) (crl : Crl) : Prop := ∀ calls, (download o cfg url calls).1 = .ok crl

/-- What the CRL that a location has says of a certificate. -/
def answerAt (c issuer : Certificate) (now : Nat) (url : String) :
    Except CrlCacheError CrlStatus :=
  match (download o cfg url []).1 with
  | .error e => .error e
  | .ok crl => (statusAt crl url c issuer now).mapError .crl

/-- What locations lead to, one after the other. -/
def answerEach (c issuer : Certificate) (now : Nat) : (failed : CrlCacheError) →
    (urls : List String) → Except CrlCacheError CrlStatus
  | failed, [] => .error failed
  | _, url :: rest =>
    match answerAt o cfg c issuer now url with
    | .ok status => .ok status
    | .error e => answerEach c issuer now e rest

/-- What the locations of a certificate lead to. -/
def answer (c issuer : Certificate) (now : Nat) : Except CrlCacheError CrlStatus :=
  answerEach o cfg c issuer now (.crl (.noDistributionPoint c.displayName)) c.crlUrls

/-- A check comes to the answer that it would come to without a cache, from the phase that it is
in. -/
def LeadsTo : CrlUse → CrlPhase → Prop
  | .check c issuer now, .looking failed urls =>
    answerEach o cfg c issuer now failed urls = answer o cfg c issuer now
  | .check c issuer now, .fetching url rest =>
    ∀ failed, answerEach o cfg c issuer now failed (url :: rest) = answer o cfg c issuer now
  | .check c issuer now, .storing url crl _ status =>
    Serves o cfg url crl ∧ answer o cfg c issuer now = .ok status
  | .check c issuer now, .answered result => result = answer o cfg c issuer now
  | _, _ => True

/-- All that is kept for a location is what it serves. -/
def AllServed (cache : CrlCache) : Prop := cache.Forall fun url kept => Serves o cfg url kept.value

variable {o cfg} {use : CrlUse} {phase : CrlPhase} {s : CrlShared} {c issuer : Certificate}
  {now : Nat} {calls calls' : Calls} {cache : CrlCache} {url : String} {rest : List String}
  {crl : Crl} {status : CrlStatus} {failed e : CrlCacheError}

/-- A download brings the same whatever was asked before. -/
theorem download_steady (hsteady : o.Steady) (url : String) (calls calls' : Calls) :
    (download o cfg url calls).1 = (download o cfg url calls').1 := by
  unfold download Outside.ask
  cases Url.parse url with
  | error e => rfl
  | ok parsed =>
    simp only [hsteady parsed cfg.crlTimeout calls calls']
    cases o.reply calls' (.get parsed cfg.crlTimeout) <;> rfl

theorem serves_of_download (hsteady : o.Steady)
    (hdownload : download o cfg url calls = (.ok crl, calls')) : Serves o cfg url crl := by
  intro earlier
  rw [download_steady hsteady url earlier calls, hdownload]

theorem Serves.answerEach_of_ok (hserves : Serves o cfg url crl)
    (hstatus : statusAt crl url c issuer now = .ok status) :
    answerEach o cfg c issuer now failed (url :: rest) = .ok status := by
  simp only [answerEach, answerAt, hserves [], hstatus, mapError_ok]

theorem Serves.answerEach_of_error {cause : CrlError} (hserves : Serves o cfg url crl)
    (hstatus : statusAt crl url c issuer now = .error cause) :
    answerEach o cfg c issuer now failed (url :: rest) =
      answerEach o cfg c issuer now (.crl cause) rest := by
  simp only [answerEach, answerAt, hserves [], hstatus, mapError_error]

theorem answerEach_of_unreached (hsteady : o.Steady)
    (hdownload : download o cfg url calls = (.error e, calls')) :
    answerEach o cfg c issuer now failed (url :: rest) =
      answerEach o cfg c issuer now e rest := by
  simp only [answerEach, answerAt, download_steady hsteady url [] calls, hdownload]

/-! ## 2. Every step goes on to it -/

/-- Whether a CRL is found or not, a look-up goes on to the answer. -/
theorem lookUp_leads (hcache : AllServed o cfg s.cache)
    (hleads : answerEach o cfg c issuer now failed (url :: rest) = answer o cfg c issuer now) :
    LeadsTo o cfg (.check c issuer now) (lookUp cfg c issuer now url rest s).1 := by
  unfold lookUp
  split
  · rename_i kept hlive
    -- what is kept is what a download would bring, and it is looked at in the same way
    have hserves : Serves o cfg url kept.value := (hcache.live? hlive).1
    split
    · rename_i cause hstatus
      exact (hserves.answerEach_of_error hstatus).symm.trans hleads
    · rename_i status hstatus
      exact (hserves.answerEach_of_ok hstatus).symm.trans hleads
  · exact fun _ => hleads

/-- So does a download. -/
theorem fetch_leads (hsteady : o.Steady)
    (hleads : ∀ failed, answerEach o cfg c issuer now failed (url :: rest) =
      answer o cfg c issuer now) :
    LeadsTo o cfg (.check c issuer now) (fetch o cfg c issuer now url rest s).1 := by
  unfold fetch
  split
  · rename_i e calls hdownload
    exact (answerEach_of_unreached hsteady hdownload).symm.trans (hleads e)
  · rename_i crl calls hdownload
    have hserves : Serves o cfg url crl := serves_of_download hsteady hdownload
    split
    · rename_i cause hstatus
      exact (hserves.answerEach_of_error hstatus).symm.trans (hleads (.crl cause))
    · rename_i status hstatus
      exact ⟨hserves, (hleads default).symm.trans (hserves.answerEach_of_ok hstatus)⟩

theorem fetch_cache : (fetch o cfg c issuer now url rest s).2.cache = s.cache := by
  unfold fetch
  split
  · rfl
  · split
    · rfl
    · rfl

theorem lookUp_entries :
    (lookUp cfg c issuer now url rest s).2.cache.entries = s.cache.entries := by
  unfold lookUp
  split
  · split
    · rfl
    · rfl
  · rfl

theorem AllServed.of_entries {cache' : CrlCache} (h : AllServed o cfg cache)
    (hentries : cache'.entries = cache.entries) : AllServed o cfg cache' := by
  intro url kept hmem
  exact h url kept (hentries ▸ hmem)

theorem start_leads (use : CrlUse) : LeadsTo o cfg use (start use) := by
  cases use with
  | check c issuer now => exact rfl
  | cleanup now => trivial

/-- **A step goes on to the answer, and keeps what locations serve.** -/
theorem step_leads (hsteady : o.Steady) (hcache : AllServed o cfg s.cache)
    (hleads : LeadsTo o cfg use phase) :
    AllServed o cfg (step o cfg use phase s).2.cache ∧
      LeadsTo o cfg use (step o cfg use phase s).1 := by
  unfold step
  split
  · exact ⟨hcache, hleads⟩
  · exact ⟨hcache.of_entries lookUp_entries, lookUp_leads hcache hleads⟩
  · refine ⟨?_, fetch_leads hsteady hleads⟩
    rw [fetch_cache]
    exact hcache
  · obtain ⟨hserves, hanswer⟩ := hleads
    exact ⟨Cache.Forall.store hcache hserves _ _ _, hanswer.symm⟩
  · exact ⟨Cache.Forall.sweep hcache _ _, trivial⟩
  · exact ⟨hcache, hleads⟩

/-- So every schedule does. -/
theorem serves_invariant (hsteady : o.Steady) : (machine o cfg).Invariant
    (fun _ s => AllServed o cfg s.cache) (fun use phase _ => LeadsTo o cfg use phase) where
  launch _ h := h
  start use _ := start_leads use
  step _ hcache hleads := step_leads hsteady hcache hleads
  stable hleads _ := hleads

theorem serves_run (cfg : RevocationConfig) (hsteady : o.Steady)
    (moves : List (Machine.Move CrlUse)) :
    (run o cfg moves).Holds (fun _ s => AllServed o cfg s.cache)
      (fun use phase _ => LeadsTo o cfg use phase) :=
  have hempty : AllServed o cfg .empty := Cache.Forall.empty _
  (serves_invariant hsteady).run hempty moves

/-! ## 3. Checks over what is kept -/

/-- A check over CRLs that their locations serve says what it would say without a cache. -/
theorem check_eq_answer (hsteady : o.Steady) (hcache : AllServed o cfg cache)
    (c issuer : Certificate) (now : Nat) (calls : Calls) :
    (check o cfg c issuer now cache calls).1 = answer o cfg c issuer now := by
  -- a check that nothing interrupts goes on to the answer by every step, down to the last one
  have halone : Yields o cfg (.check c issuer now) _ ⟨cache, calls⟩ _ :=
    check_yields o cfg c issuer now ⟨cache, calls⟩
  have huse : CrlUse.check c issuer now ∈ [.check c issuer now] := List.mem_cons_self
  exact (Machine.Alone.holds halone (serves_invariant hsteady) huse
    ⟨hcache, start_leads (.check c issuer now)⟩).2

variable (o cfg) in
/-- What is kept changes no answer, in a pool of uses that overlap. -/
structure Transparent (p : Machine.Pool CrlShared CrlUse CrlPhase) : Prop where
  /-- A check of any certificate at any time says, status or error, what it says where nothing is
  kept. -/
  alone : ∀ c issuer now calls fresh calls', fresh.entries = [] →
    (check o cfg c issuer now p.shared.cache calls).1 = (check o cfg c issuer now fresh calls').1
  /-- So does a check that others interrupted. -/
  interrupted : ∀ c issuer now result, (.check c issuer now, .answered result) ∈ p.threads →
    ∀ fresh calls, fresh.entries = [] → result = (check o cfg c issuer now fresh calls).1

/-- **Keeping CRLs is transparent.** Where a reply to a download depends on its location alone, a
check says the same after any checks and clean-ups as where nothing is kept, whether these overlap
or follow one another. -/
theorem check_transparent (o : Outside) (cfg : RevocationConfig) (hsteady : o.Steady) :
    (∀ moves, Transparent o cfg (run o cfg moves)) ∧
    ∀ (uses : List CrlUse) (c issuer : Certificate) (now : Nat) (fresh : CrlCache) (calls : Calls),
      fresh.entries = [] →
        (check o cfg c issuer now (uses.foldl (applyUse o cfg) (.empty, [])).1
          (uses.foldl (applyUse o cfg) (.empty, [])).2).1 =
        (check o cfg c issuer now fresh calls).1 := by
  have hfresh : ∀ c issuer now (fresh : CrlCache) calls, fresh.entries = [] →
      (check o cfg c issuer now fresh calls).1 = answer o cfg c issuer now := by
    intro c issuer now fresh calls hempty
    have hnone : AllServed o cfg fresh := AllServed.of_entries (Cache.Forall.empty _) hempty
    exact check_eq_answer hsteady hnone c issuer now calls
  constructor
  · intro moves
    obtain ⟨hcache, hleads⟩ := serves_run cfg hsteady moves
    constructor
    · intro c issuer now calls fresh calls' hempty
      rw [check_eq_answer hsteady hcache, hfresh c issuer now fresh calls' hempty]
    · intro c issuer now result hmem fresh calls hempty
      rw [hfresh c issuer now fresh calls hempty]
      exact hleads (.check c issuer now) (.answered result) hmem
  · intro uses c issuer now fresh calls hempty
    obtain ⟨moves, hmoves⟩ := exists_schedule o cfg uses
    have hcache : AllServed o cfg (run o cfg moves).shared.cache :=
      (serves_run cfg hsteady moves).shared
    rw [← hmoves, check_eq_answer hsteady hcache, hfresh c issuer now fresh calls hempty]

end CrlCache

open Sample CrlCache in
theorem CrlCache.check_transparent_on_hit : crlServer.Steady ∧ ∃ kept calls,
    [.check located issuer now].foldl (applyUse crlServer .standard) (.empty, []) = (kept, calls) ∧
      (check crlServer .standard located issuer now kept calls).1 = .ok .revoked ∧
      (check crlServer .standard located issuer now kept calls).2.1.hits = 1 := by
  have hparsed : Url.parse url = .ok ⟨"ldap", none, "list", none, none⟩ := rfl
  have hread : Crl.parse crl = .ok record := by decide +kernel
  have hreply : crlServer.reply [] (.get ⟨"ldap", none, "list", none, none⟩
      RevocationConfig.standard.crlTimeout) = .ok crl := rfl
  have hstatus : statusAt record url located issuer now = .ok .revoked := by decide +kernel
  obtain ⟨hfirst, -, hhits⟩ := check_again rfl hparsed hreply hread hstatus hstatus rfl rfl
  have hsteady : crlServer.Steady := fun _ _ _ _ => rfl
  have hsame := (check_transparent crlServer .standard hsteady).2 [.check located issuer now]
    located issuer now .empty [] rfl
  have hkept : [.check located issuer now].foldl (applyUse crlServer .standard) (.empty, []) =
      (check crlServer .standard located issuer now .empty []).2 := rfl
  rw [hkept] at hsame ⊢
  exact ⟨hsteady, _, _, (Prod.eta _).symm, hsame.trans hfirst, hhits⟩

end PeerTrust
