import PeerTrust.Revocation.Cache

/-!
# What a cache keeps

`Cache.Forall` says something of all that a cache keeps. Counting and sweeping preserve it
(`Cache.Forall.sweep`), storing does where it holds of what is stored (`Cache.Forall.store`), and
what is found in the cache has it (`Cache.Forall.live?`).

`Cache.mem_insert_iff` and `Cache.mem_sweep_iff` say exactly what is kept after a change,
`Cache.find?_eq_some_iff_mem` what a look-up finds; `Kept.Fresh` is when it may be used. Storing is
both changes: `Cache.mem_store_iff` says what is kept then of what has not expired. Under
`Cache.Distinct`, which all changes preserve, look-ups find exactly that.
-/

namespace PeerTrust

/-- An answer may still be used: no newer one is due or, where none was promised, its lifetime has
not passed. A clock that went back counts as no time passed. -/
structure Kept.Fresh {α : Type} (lifetime now : Nat) (k : Kept α) : Prop where
  due : ∀ next, k.nextUpdate = some next → now ≤ next
  lifetime : k.nextUpdate = none → now - k.storedAt ≤ lifetime

theorem Kept.isExpired_eq_false_iff {α : Type} {lifetime now : Nat} {k : Kept α} :
    k.isExpired lifetime now = false ↔ k.Fresh lifetime now := by
  unfold isExpired
  cases hnext : k.nextUpdate with
  | none =>
    simp only [decide_eq_false_iff_not, Nat.not_lt]
    exact ⟨fun h => ⟨by simp [hnext], fun _ => h⟩, fun h => h.lifetime hnext⟩
  | some next =>
    simp only [decide_eq_false_iff_not, Nat.not_lt]
    exact ⟨fun h => ⟨by simp [hnext, h], by simp [hnext]⟩, fun h => h.due next hnext⟩

namespace Cache

variable {κ α : Type} {P Q : κ → Kept α → Prop} {c : Cache κ α} {key : κ} {kept : Kept α}

/-- All that a cache keeps has a property, together with the key that it is kept under. -/
def Forall (P : κ → Kept α → Prop) (c : Cache κ α) : Prop :=
  ∀ key kept, (key, kept) ∈ c.entries → P key kept

namespace Forall

theorem empty (P : κ → Kept α → Prop) : Forall P (Cache.empty : Cache κ α) := by
  intro key kept h
  cases h

theorem mono (h : c.Forall P) (hpq : ∀ key kept, P key kept → Q key kept) : c.Forall Q :=
  fun key kept hmem => hpq key kept (h key kept hmem)

theorem countHit (h : c.Forall P) : c.countHit.Forall P := h

theorem countMiss (h : c.Forall P) : c.countMiss.Forall P := h

theorem sweep (h : c.Forall P) (lifetime now : Nat) : (c.sweep lifetime now).Forall P :=
  fun key kept hmem => h key kept ((List.mem_filter.mp hmem).1)

variable [BEq κ]

theorem insert (h : c.Forall P) (hnew : P key kept) : (c.insert key kept).Forall P := by
  intro key' kept' hmem
  rcases List.mem_cons.mp hmem with heq | hmem
  · cases heq
    exact hnew
  · exact h key' kept' ((List.mem_filter.mp hmem).1)

theorem store (h : c.Forall P) (hnew : P key kept) (limit lifetime now : Nat) :
    (c.store limit lifetime now key kept).Forall P := by
  have hinsert : (c.insert key kept).Forall P := h.insert hnew
  unfold Cache.store
  simp only
  split
  · exact hinsert.sweep lifetime now
  · exact hinsert

variable [LawfulBEq κ]

theorem find? (h : c.Forall P) (hfind : c.find? key = some kept) : P key kept := by
  obtain ⟨before, after, hentries, -⟩ := List.lookup_eq_some_iff.mp hfind
  exact h key kept (by rw [hentries]; simp)

/-- What is found alive has not expired. -/
theorem live? {lifetime now : Nat} (h : c.Forall P) (hlive : c.live? lifetime now key = some kept) :
    P key kept ∧ kept.isExpired lifetime now = false := by
  obtain ⟨hfind, hfresh⟩ := Option.filter_eq_some_iff.mp hlive
  exact ⟨h.find? hfind, by simpa using hfresh⟩

end Forall

section Members

variable {key' : κ} {kept' : Kept α}

theorem mem_sweep_iff {lifetime now : Nat} :
    (key, kept) ∈ (c.sweep lifetime now).entries ↔
      (key, kept) ∈ c.entries ∧ kept.isExpired lifetime now = false := by
  simp [sweep]

variable [BEq κ] [LawfulBEq κ]

theorem mem_insert_iff : (key', kept') ∈ (c.insert key kept).entries ↔
    (key' = key ∧ kept' = kept) ∨ (key' ≠ key ∧ (key', kept') ∈ c.entries) := by
  simp only [insert, List.mem_cons, Prod.mk.injEq, List.mem_filter, bne_iff_ne, and_comm]

theorem mem_of_find? (h : c.find? key = some kept) : (key, kept) ∈ c.entries :=
  Forall.find? (P := fun key kept => (key, kept) ∈ c.entries) (fun _ _ hmem => hmem) h

/-- A look-up finds what is kept under a key, provided that nothing else is. -/
theorem find?_eq_some_iff_mem (hunique : ∀ k k', (key, k) ∈ c.entries → (key, k') ∈ c.entries →
    k = k') : c.find? key = some kept ↔ (key, kept) ∈ c.entries := by
  refine ⟨mem_of_find?, fun hmem => ?_⟩
  cases hfind : c.find? key with
  | none =>
    have hmiss := List.lookup_eq_none_iff.mp hfind (key, kept) hmem
    simp at hmiss
  | some found => rw [hunique found kept (mem_of_find? hfind) hmem]

/-- What is stored is found, as long as it is fresh: the sweep does not drop it. -/
theorem live?_store_self {limit lifetime now : Nat} (hfresh : kept.isExpired lifetime now = false) :
    (c.store limit lifetime now key kept).live? lifetime now key = some kept := by
  have hfind : (c.store limit lifetime now key kept).find? key = some kept := by
    unfold store
    simp only
    split
    · simp [find?, sweep, insert, hfresh]
    · simp [find?, insert]
  simp [live?, hfind, hfresh]

theorem mem_of_mem_store {limit lifetime now : Nat}
    (h : (key', kept') ∈ (c.store limit lifetime now key kept).entries) :
    (key' = key ∧ kept' = kept) ∨ (key' ≠ key ∧ (key', kept') ∈ c.entries) := by
  unfold store at h
  simp only at h
  split at h
  · exact mem_insert_iff.mp (mem_sweep_iff.mp h).1
  · exact mem_insert_iff.mp h

/-- What has not expired is kept after storing, unless it makes way for what is stored. -/
theorem mem_store_iff {limit lifetime now : Nat} (hfresh : kept'.isExpired lifetime now = false) :
    (key', kept') ∈ (c.store limit lifetime now key kept).entries ↔
      (key' = key ∧ kept' = kept) ∨ (key' ≠ key ∧ (key', kept') ∈ c.entries) := by
  refine ⟨mem_of_mem_store, fun h => ?_⟩
  unfold store
  simp only
  split
  · exact mem_sweep_iff.mpr ⟨mem_insert_iff.mpr h, hfresh⟩
  · exact mem_insert_iff.mpr h

end Members

/-- Nothing is kept twice under one key. -/
def Distinct (c : Cache κ α) : Prop :=
  ∀ key kept kept', (key, kept) ∈ c.entries → (key, kept') ∈ c.entries → kept = kept'

namespace Distinct

theorem empty : Distinct (Cache.empty : Cache κ α) := by
  intro key kept kept' h
  cases h

theorem countHit (h : c.Distinct) : c.countHit.Distinct := h

theorem countMiss (h : c.Distinct) : c.countMiss.Distinct := h

theorem sweep (h : c.Distinct) (lifetime now : Nat) : (c.sweep lifetime now).Distinct :=
  fun key kept kept' hmem hmem' =>
    h key kept kept' (mem_sweep_iff.mp hmem).1 (mem_sweep_iff.mp hmem').1

variable [BEq κ] [LawfulBEq κ]

theorem store (h : c.Distinct) (limit lifetime now : Nat) (key : κ) (kept : Kept α) :
    (c.store limit lifetime now key kept).Distinct := by
  intro key' kept₁ kept₂ hmem₁ hmem₂
  rcases mem_of_mem_store hmem₁ with ⟨rfl, rfl⟩ | ⟨hne, hold₁⟩
  · rcases mem_of_mem_store hmem₂ with ⟨-, rfl⟩ | ⟨hne, -⟩
    · rfl
    · exact absurd rfl hne
  · rcases mem_of_mem_store hmem₂ with ⟨rfl, -⟩ | ⟨-, hold₂⟩
    · exact absurd rfl hne
    · exact h key' kept₁ kept₂ hold₁ hold₂

/-- A look-up finds what is kept under a key and has not expired. -/
theorem live?_eq_some_iff (h : c.Distinct) {lifetime now : Nat} :
    c.live? lifetime now key = some kept ↔
      (key, kept) ∈ c.entries ∧ kept.isExpired lifetime now = false := by
  rw [live?, Option.filter_eq_some_iff, find?_eq_some_iff_mem (h key)]
  simp

end Distinct

end Cache

end PeerTrust
