import Mathlib.Data.List.Nodup
import PeerTrust.Proofs.CrlThreads
import PeerTrust.Proofs.OcspThreads
import PeerTrust.Revocation.Checker

/-!
# Eviction

Both caches drop what has expired: at a clean-up, and when something is stored while more is kept
than a limit. The time of that is not the time of the look-ups that follow, and an answer may expire
by the date that its source promised or by its age.

* `Kept.Fresh.of_le`: what may be used at a time could be used at every earlier time;
* `Cache.Evicted` says all that an eviction does and `Cache.Stored` all that storing does:
  `Cache.Distinct.evicted_sweep`, `Cache.Distinct.stored_store`;
* `Cache.Change` lists the changes of what is kept; `OcspCache.step_change` and
  `CrlCache.step_change`: no atomic step of overlapping uses makes another;
* `RevocationChecker.evictions_unseen`: no look-up tells whether there was an eviction.
-/

namespace PeerTrust

/-! ## 1. Expired for good -/

section Expiry

variable {α : Type} {k : Kept α} {lifetime t t' : Nat}

/-- Whether an answer expires by a date or by its age, it does so once. A clock that is behind the
storing is no exception: until it catches up, no time has passed. -/
theorem Kept.Fresh.of_le (h : k.Fresh lifetime t') (hle : t ≤ t') : k.Fresh lifetime t where
  due next hnext := Nat.le_trans hle (h.due next hnext)
  lifetime hnone := Nat.le_trans (Nat.sub_le_sub_right hle k.storedAt) (h.lifetime hnone)

theorem Kept.isExpired_eq_false_of_le (h : k.isExpired lifetime t' = false) (hle : t ≤ t') :
    k.isExpired lifetime t = false :=
  Kept.isExpired_eq_false_iff.mpr ((Kept.isExpired_eq_false_iff.mp h).of_le hle)

end Expiry

/-! ## 2. Changes of a cache -/

namespace Cache

variable {κ α : Type}

/-- Keys that are pairwise different, as those of a table are, keep one answer each. -/
theorem Distinct.of_nodup {c : Cache κ α} (h : (c.entries.map Prod.fst).Nodup) :
    c.Distinct := fun _ _ _ hmem hmem' =>
  (Prod.mk.inj (List.inj_on_of_nodup_map h hmem hmem' rfl)).2

variable [BEq κ]

/-- What an eviction at a time makes of a cache. -/
structure Evicted (lifetime t : Nat) (before after : Cache κ α) : Prop where
  /-- From then on, what is found and has not expired is what would have been found. -/
  unseen : ∀ key t', t ≤ t' → after.live? lifetime t' key = before.live? lifetime t' key
  /-- Nothing that has expired is left. -/
  gone : ∀ key kept, (key, kept) ∈ after.entries → kept.isExpired lifetime t = false
  /-- Nothing that has not expired is dropped. -/
  spared : ∀ key kept, (key, kept) ∈ before.entries → kept.isExpired lifetime t = false →
    (key, kept) ∈ after.entries
  old : after.entries ⊆ before.entries

/-- What storing an answer at a time makes of a cache. -/
structure Stored (limit lifetime t : Nat) (key : κ) (kept : Kept α) (before after : Cache κ α) :
    Prop where
  /-- From then on, what is found under other keys and has not expired is what would have been. -/
  unseen : ∀ other t', other ≠ key → t ≤ t' →
    after.live? lifetime t' other = before.live? lifetime t' other
  /-- The cache is not large, or nothing that has expired is left. -/
  few : after.size ≤ limit ∨
    ∀ other kept', (other, kept') ∈ after.entries → kept'.isExpired lifetime t = false
  /-- Nothing that has not expired is dropped, but what makes way for the answer. -/
  spared : ∀ other kept', other ≠ key → (other, kept') ∈ before.entries →
    kept'.isExpired lifetime t = false → (other, kept') ∈ after.entries
  /-- The answer is found, unless it came expired. -/
  found : kept.isExpired lifetime t = false → after.live? lifetime t key = some kept
  /-- A cache that is large with the answer is evicted from, and no other is. -/
  swept : limit < (before.insert key kept).size → Evicted lifetime t (before.insert key kept) after
  unswept : (before.insert key kept).size ≤ limit → after.entries = (before.insert key kept).entries

/-- All that ever changes what a cache keeps. -/
inductive Change (limit lifetime : Nat) (before after : Cache κ α) : Prop where
  | nothing (entries : after.entries = before.entries)
  | eviction (t : Nat) (evicted : Evicted lifetime t before after)
  | storing (key : κ) (kept : Kept α)
      (stored : Stored limit lifetime kept.storedAt key kept before after)

variable [LawfulBEq κ] {c before after : Cache κ α} {key : κ} {kept : Kept α}
  {limit lifetime t : Nat}

theorem Distinct.insert (h : c.Distinct) (key : κ) (kept : Kept α) :
    (c.insert key kept).Distinct := by
  intro other kept₁ kept₂ hmem₁ hmem₂
  rcases mem_insert_iff.mp hmem₁ with ⟨rfl, rfl⟩ | ⟨hne, hold₁⟩
  · rcases mem_insert_iff.mp hmem₂ with ⟨-, rfl⟩ | ⟨hne, -⟩
    · rfl
    · exact absurd rfl hne
  · rcases mem_insert_iff.mp hmem₂ with ⟨rfl, -⟩ | ⟨-, hold₂⟩
    · exact absurd rfl hne
    · exact h other kept₁ kept₂ hold₁ hold₂

/-- **A sweep is an eviction.** What is looked up later and has not expired then had not expired at
the sweep. -/
theorem Distinct.evicted_sweep (h : c.Distinct) (lifetime t : Nat) :
    Evicted lifetime t c (c.sweep lifetime t) where
  unseen key t' hle := by
    refine Option.ext fun kept => ?_
    rw [(h.sweep lifetime t).live?_eq_some_iff, h.live?_eq_some_iff, mem_sweep_iff]
    constructor
    · rintro ⟨⟨hmem, -⟩, hlater⟩
      exact ⟨hmem, hlater⟩
    · rintro ⟨hmem, hlater⟩
      exact ⟨⟨hmem, Kept.isExpired_eq_false_of_le hlater hle⟩, hlater⟩
  gone _ _ hmem := (mem_sweep_iff.mp hmem).2
  spared _ _ hmem hfresh := mem_sweep_iff.mpr ⟨hmem, hfresh⟩
  old _ hmem := (mem_sweep_iff.mp hmem).1

theorem Distinct.live?_insert_of_ne (h : c.Distinct) {other : κ} (hne : other ≠ key)
    (kept : Kept α) (lifetime t : Nat) :
    (c.insert key kept).live? lifetime t other = c.live? lifetime t other := by
  refine Option.ext fun kept' => ?_
  rw [(h.insert key kept).live?_eq_some_iff, h.live?_eq_some_iff, mem_insert_iff]
  simp [hne]

/-- **Storing sweeps a cache that is large, and no other.** -/
theorem Distinct.stored_store (h : c.Distinct) (limit lifetime t : Nat) (key : κ) (kept : Kept α) :
    Stored limit lifetime t key kept c (c.store limit lifetime t key kept) := by
  have hspared : ∀ other kept', other ≠ key → (other, kept') ∈ c.entries →
      kept'.isExpired lifetime t = false →
        (other, kept') ∈ (c.store limit lifetime t key kept).entries :=
    fun other kept' hne hmem hfresh => (mem_store_iff hfresh).mpr (.inr ⟨hne, hmem⟩)
  have hfound : kept.isExpired lifetime t = false →
      (c.store limit lifetime t key kept).live? lifetime t key = some kept := live?_store_self
  by_cases hlarge : limit < (c.insert key kept).size
  · have hstore : c.store limit lifetime t key kept = (c.insert key kept).sweep lifetime t :=
      if_pos hlarge
    have hevicted := (h.insert key kept).evicted_sweep lifetime t
    rw [← hstore] at hevicted
    exact
      { unseen := fun other t' hne hle =>
          (hevicted.unseen other t' hle).trans (h.live?_insert_of_ne hne kept lifetime t')
        few := .inr hevicted.gone
        spared := hspared
        found := hfound
        swept := fun _ => hevicted
        unswept := fun hsmall => absurd hlarge (Nat.not_lt.mpr hsmall) }
  · have hstore : c.store limit lifetime t key kept = c.insert key kept := if_neg hlarge
    exact
      { unseen := fun other t' hne _ => by
          rw [hstore]
          exact h.live?_insert_of_ne hne kept lifetime t'
        few := .inl (by rw [hstore]; exact Nat.not_lt.mp hlarge)
        spared := hspared
        found := hfound
        swept := fun hlarge' => absurd hlarge' hlarge
        unswept := fun _ => congrArg entries hstore }

/-- No change brings a second answer under a key. -/
theorem Change.distinct (hchange : Change limit lifetime before after) (h : before.Distinct) :
    after.Distinct := by
  cases hchange with
  | nothing entries =>
    intro key kept kept' hmem hmem'
    rw [entries] at hmem hmem'
    exact h key kept kept' hmem hmem'
  | eviction t evicted =>
    exact fun key kept kept' hmem hmem' =>
      h key kept kept' (evicted.old hmem) (evicted.old hmem')
  | storing key kept stored =>
    have hinsert := h.insert key kept
    rcases Nat.lt_or_ge limit (before.insert key kept).size with hlarge | hsmall
    · have hold := (stored.swept hlarge).old
      exact fun key' kept₁ kept₂ hmem₁ hmem₂ =>
        hinsert key' kept₁ kept₂ (hold hmem₁) (hold hmem₂)
    · intro key' kept₁ kept₂ hmem₁ hmem₂
      rw [stored.unswept hsmall] at hmem₁ hmem₂
      exact hinsert key' kept₁ kept₂ hmem₁ hmem₂

end Cache

/-! ## 3. Overlapping uses -/

namespace OcspCache

variable {o : Outside} {cfg : RevocationConfig}

/-- Recording a definite answer stores it. -/
theorem stored_record {cache : OcspCache} (h : cache.Distinct) (cfg : RevocationConfig)
    (c issuer : Certificate) (t : Nat) {a : Ocsp.Answer} (hdefinite : a.status ≠ .unknown) :
    Cache.Stored sweepLimit cfg.ocspLifetime t (.of c issuer) ⟨a.status, t, a.nextUpdate⟩ cache
      (cache.record cfg c issuer t a) := by
  rw [record, if_neg hdefinite]
  exact h.stored_store _ _ _ _ _

/-- An atomic step changes what is kept as the list of changes says. -/
theorem step_change {use : OcspUse} {phase : OcspPhase} {s : OcspShared}
    (hdistinct : s.cache.Distinct) (hlocal : Accepted o use phase s) :
    Cache.Change sweepLimit cfg.ocspLifetime s.cache (step o cfg use phase s).2.cache := by
  have hdoes : Does o cfg use phase s (step o cfg use phase s) := step_does hlocal
  generalize step o cfg use phase s = r at hdoes
  cases hdoes with
  | quiet entries _ _ _ => exact .nothing entries
  | records phase_eq =>
    have horigin := hlocal _ phase_eq
    exact .storing _ ⟨_, _, _⟩ (stored_record hdistinct cfg _ _ _ horigin.definite)
  | sweeps _ => exact .eviction _ (hdistinct.evicted_sweep _ _)

/-- Nothing is ever kept twice under one key, whatever uses overlap. -/
theorem holds_run_distinct (o : Outside) (cfg : RevocationConfig)
    (moves : List (Machine.Move OcspUse)) : (run o cfg moves).Holds
      (fun uses s => Logged o cfg uses s ∧ s.cache.Distinct) (Accepted o) := by
  have hkept : (machine o cfg).Invariant
      (fun uses s => Logged o cfg uses s ∧ s.cache.Distinct) (Accepted o) :=
    invariant.and_shared fun _ _ _ hdistinct hlocal =>
      (step_change hdistinct hlocal).distinct hdistinct
  exact hkept.run ⟨⟨rfl, fun _ h => absurd h List.not_mem_nil⟩, .empty⟩ moves

end OcspCache

namespace CrlCache

variable {o : Outside} {cfg : RevocationConfig}

/-- Where a check of one location changes what is kept, it stores a CRL, at the time that is kept
with it. -/
theorem checkAt_change {cache : CrlCache} (h : cache.Distinct) (o : Outside)
    (cfg : RevocationConfig) (url : String) (c issuer : Certificate) (now : Nat) (calls : Calls) :
    (checkAt o cfg url c issuer now cache calls).2.1.entries = cache.entries ∨
      ∃ crl t, t = o.clock (checkAt o cfg url c issuer now cache calls).2.2 ∧
        Cache.Stored sweepLimit cfg.crlLifetime t url ⟨crl, t, crl.nextUpdate⟩ cache.countMiss
          (checkAt o cfg url c issuer now cache calls).2.1 := by
  unfold checkAt
  split
  · exact .inl rfl
  · split
    · exact .inl rfl
    · split
      · exact .inl rfl
      · exact .inr ⟨_, _, rfl, h.countMiss.stored_store _ _ _ _ _⟩

/-- An atomic step changes what is kept as the list of changes says. -/
theorem step_change {use : CrlUse} {phase : CrlPhase} {s : CrlShared}
    (hdistinct : s.cache.Distinct) (hlocal : Sound o cfg use phase s) :
    Cache.Change sweepLimit cfg.crlLifetime s.cache (step o cfg use phase s).2.cache := by
  have hdoes : Does o cfg use phase s (step o cfg use phase s) := step_does hlocal
  generalize step o cfg use phase s = r at hdoes
  cases hdoes with
  | quiet entries _ _ => exact .nothing entries
  | stores _ => exact .storing _ ⟨_, _, _⟩ (hdistinct.stored_store _ _ _ _ _)
  | sweeps _ => exact .eviction _ (hdistinct.evicted_sweep _ _)

/-- Nothing is ever kept twice under one key, whatever uses overlap. -/
theorem holds_run_distinct (o : Outside) (cfg : RevocationConfig)
    (moves : List (Machine.Move CrlUse)) : (run o cfg moves).Holds
      (fun uses s => AllFetched o cfg uses s ∧ s.cache.Distinct) (Sound o cfg) := by
  have hkept : (machine o cfg).Invariant
      (fun uses s => AllFetched o cfg uses s ∧ s.cache.Distinct) (Sound o cfg) :=
    invariant.and_shared fun _ _ _ hdistinct hlocal =>
      (step_change hdistinct hlocal).distinct hdistinct
  have hstart : AllFetched o cfg [] ⟨.empty, []⟩ := Cache.Forall.empty _
  exact hkept.run ⟨hstart, .empty⟩ moves

end CrlCache

/-! ## 4. The caches of a checker -/

/-- No look-up tells whether one of the caches of a checker was evicted from. -/
structure RevocationChecker.EvictsUnseen (k : RevocationChecker) : Prop where
  /-- A clean-up evicts from both, at its time. -/
  cleanup : ∀ t, Cache.Evicted k.config.ocspLifetime t k.ocsp (k.cleanup t).ocsp ∧
    Cache.Evicted k.config.crlLifetime t k.crls (k.cleanup t).crls
  /-- A definite answer is stored at the time of the verification. -/
  answer : ∀ c issuer t (a : Ocsp.Answer), a.status ≠ .unknown →
    Cache.Stored 1024 k.config.ocspLifetime t (.of c issuer) ⟨a.status, t, a.nextUpdate⟩ k.ocsp
      (k.ocsp.record k.config c issuer t a)
  /-- A CRL is stored at the time of its download, whatever the time of the verification. -/
  crl : ∀ o url c issuer now calls,
    (CrlCache.checkAt o k.config url c issuer now k.crls calls).2.1.entries = k.crls.entries ∨
      ∃ crl t, t = o.clock (CrlCache.checkAt o k.config url c issuer now k.crls calls).2.2 ∧
        Cache.Stored 256 k.config.crlLifetime t url ⟨crl, t, crl.nextUpdate⟩ k.crls.countMiss
          (CrlCache.checkAt o k.config url c issuer now k.crls calls).2.1

/-- **No look-up tells whether there was an eviction.** That is so in every state of the caches, in
which nothing is kept twice under one key, whatever is stored or cleaned up and when. Uses that
overlap reach no other states, and make no change that is neither an eviction nor a storing. -/
theorem RevocationChecker.evictions_unseen :
    (∀ k : RevocationChecker, k.ocsp.Distinct → k.crls.Distinct → k.EvictsUnseen) ∧
    (∀ o cfg moves, (OcspCache.run o cfg moves).shared.cache.Distinct ∧
      ∀ use phase, (use, phase) ∈ (OcspCache.run o cfg moves).threads →
        Cache.Change 1024 cfg.ocspLifetime (OcspCache.run o cfg moves).shared.cache
          (OcspCache.step o cfg use phase (OcspCache.run o cfg moves).shared).2.cache) ∧
    ∀ o cfg moves, (CrlCache.run o cfg moves).shared.cache.Distinct ∧
      ∀ use phase, (use, phase) ∈ (CrlCache.run o cfg moves).threads →
        Cache.Change 256 cfg.crlLifetime (CrlCache.run o cfg moves).shared.cache
          (CrlCache.step o cfg use phase (CrlCache.run o cfg moves).shared).2.cache := by
  refine ⟨fun k hocsp hcrls => ?_, fun o cfg moves => ?_, fun o cfg moves => ?_⟩
  · exact
      { cleanup := fun t => ⟨hocsp.evicted_sweep _ t, hcrls.evicted_sweep _ t⟩
        answer := fun c issuer t a => OcspCache.stored_record hocsp k.config c issuer t
        crl := fun o url c issuer now => CrlCache.checkAt_change hcrls o k.config url c issuer now }
  · have hholds := OcspCache.holds_run_distinct o cfg moves
    exact ⟨hholds.shared.2, fun use phase hmem =>
      OcspCache.step_change hholds.shared.2 (hholds.threads use phase hmem)⟩
  · have hholds := CrlCache.holds_run_distinct o cfg moves
    exact ⟨hholds.shared.2, fun use phase hmem =>
      CrlCache.step_change hholds.shared.2 (hholds.threads use phase hmem)⟩

namespace EvictionSample

/-- The key of one of the certificates of an issuer. -/
def key (serial : UInt8) : OcspKey := ⟨[0], [serial]⟩

/-- A checker that keeps an answer of each kind: by date, expired at 1000 or not, and by age, stored
before then or by a clock that was ahead. -/
def checker : RevocationChecker where
  config := .standard
  localCrls := []
  ocsp :=
    { entries := [(key 1, ⟨.good, 100, some 500⟩), (key 2, ⟨.revoked, 100, some 5000⟩),
        (key 3, ⟨.good, 900, none⟩), (key 4, ⟨.good, 2000, none⟩)]
      hits := 0
      misses := 4 }
  crls := { entries := [("list", ⟨default, 100, some 500⟩)], hits := 0, misses := 1 }

theorem checker_distinct : checker.ocsp.Distinct ∧ checker.crls.Distinct :=
  ⟨.of_nodup (by decide), .of_nodup (by decide)⟩

end EvictionSample

open EvictionSample in
theorem RevocationChecker.evictions_unseen_of_sample :
    checker.EvictsUnseen ∧ (checker.cleanup 1000).ocsp.size = 3 ∧
      (checker.cleanup 1000).crls.size = 0 := by
  obtain ⟨hunseen, -, -⟩ := evictions_unseen
  exact ⟨hunseen checker checker_distinct.1 checker_distinct.2, by decide, by decide⟩

end PeerTrust
