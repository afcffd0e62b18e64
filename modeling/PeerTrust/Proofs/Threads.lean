import Mathlib.Logic.Relation

/-!
# Uses of a shared state that overlap

A state is shared by uses that take several atomic steps each, and the steps of different uses come
in any order.

* `Machine` says how uses go, `Machine.run` what a schedule makes of a state;
* `Machine.Invariant` is what every atomic step keeps, so that every schedule keeps it:
  `Machine.Invariant.run`;
* `Machine.Alone` is a use that nothing interrupts; uses one after the other are a schedule like any
  other: `Machine.exists_schedule`.
-/

namespace PeerTrust

/-- Uses of a shared state: the phase in which one starts, and what the atomic step does that it
takes in a phase. -/
structure Machine (σ υ φ : Type) where
  start : υ → φ
  step : υ → φ → σ → φ × σ

namespace Machine

variable {σ υ φ τ : Type}

/-! ## 1. Schedules -/

/-- What comes next: a use starts, or one that started takes a step. -/
inductive Move (υ : Type) where
  | launch (use : υ)
  | resume (thread : Nat)

/-- A shared state, and the uses that started with the phase that each is in. -/
structure Pool (σ υ φ : Type) where
  shared : σ
  threads : List (υ × φ)

/-- The uses that started. -/
def Pool.uses (p : Pool σ υ φ) : List υ := p.threads.map Prod.fst

/-- What a move leaves behind. There is nothing to resume in a thread that did not start. -/
def advance (m : Machine σ υ φ) (p : Pool σ υ φ) : Move υ → Pool σ υ φ
  | .launch use => { p with threads := p.threads ++ [(use, m.start use)] }
  | .resume thread =>
    match p.threads[thread]? with
    | none => p
    | some (use, phase) =>
      ⟨(m.step use phase p.shared).2,
        p.threads.set thread (use, (m.step use phase p.shared).1)⟩

/-- What a schedule leaves behind that starts with no use. -/
def run (m : Machine σ υ φ) (s : σ) (moves : List (Move υ)) : Pool σ υ φ :=
  moves.foldl m.advance ⟨s, []⟩

theorem uses_advance_launch (m : Machine σ υ φ) (p : Pool σ υ φ) (use : υ) :
    (m.advance p (.launch use)).uses = p.uses ++ [use] := by
  simp [advance, Pool.uses]

/-- A step goes on with a use and starts none. -/
theorem uses_advance_resume (m : Machine σ υ φ) (p : Pool σ υ φ) (thread : Nat) :
    (m.advance p (.resume thread)).uses = p.uses := by
  simp only [advance, Pool.uses]
  split
  · rfl
  · rename_i use phase hget
    obtain ⟨hlt, heq⟩ := List.getElem?_eq_some_iff.mp hget
    rw [List.map_set]
    refine List.ext_getElem? fun i => ?_
    rw [List.getElem?_set]
    split
    · rename_i hi
      subst hi
      simp [hlt, heq]
    · rfl

/-! ## 2. What every schedule keeps -/

/-- Something holds of the shared state and the uses that started, and something of every use, its
phase and the shared state. -/
structure Pool.Holds (Shared : List υ → σ → Prop) (Local : υ → φ → σ → Prop) (p : Pool σ υ φ) :
    Prop where
  shared : Shared p.uses p.shared
  threads : ∀ use phase, (use, phase) ∈ p.threads → Local use phase p.shared

/-- The atomic steps keep what holds: a step keeps `Shared`, and `Local` of the use that takes it;
it does not disturb `Local` of any other. -/
structure Invariant (m : Machine σ υ φ) (Shared : List υ → σ → Prop) (Local : υ → φ → σ → Prop) :
    Prop where
  launch : ∀ {uses s} use, Shared uses s → Shared (uses ++ [use]) s
  start : ∀ use s, Local use (m.start use) s
  step : ∀ {uses use phase s}, use ∈ uses → Shared uses s → Local use phase s →
    Shared uses (m.step use phase s).2 ∧
      Local use (m.step use phase s).1 (m.step use phase s).2
  stable : ∀ {use phase use' phase' s}, Local use phase s → Local use' phase' s →
    Local use phase (m.step use' phase' s).2

namespace Invariant

variable {m : Machine σ υ φ} {Shared : List υ → σ → Prop} {Local : υ → φ → σ → Prop}

theorem advance (h : m.Invariant Shared Local) {p : Pool σ υ φ} (hp : p.Holds Shared Local)
    (move : Move υ) : (m.advance p move).Holds Shared Local := by
  obtain ⟨hshared, hthreads⟩ := hp
  cases move with
  | launch use =>
    refine ⟨?_, fun use' phase hmem => ?_⟩
    · rw [uses_advance_launch]
      exact h.launch use hshared
    · rcases List.mem_append.mp hmem with hmem | hmem
      · exact hthreads use' phase hmem
      · obtain ⟨rfl, rfl⟩ := Prod.mk.inj (List.mem_singleton.mp hmem)
        exact h.start use' p.shared
  | resume thread =>
    cases hget : p.threads[thread]? with
    | none =>
      have hidle : m.advance p (.resume thread) = p := by simp [Machine.advance, hget]
      rw [hidle]
      exact ⟨hshared, hthreads⟩
    | some t =>
      obtain ⟨use, phase⟩ := t
      have hmem : (use, phase) ∈ p.threads := List.mem_of_getElem? hget
      have hmoved : m.advance p (.resume thread) = ⟨(m.step use phase p.shared).2,
          p.threads.set thread (use, (m.step use phase p.shared).1)⟩ := by
        simp [Machine.advance, hget]
      have huses := uses_advance_resume m p thread
      rw [hmoved] at huses ⊢
      obtain ⟨hshared', hlocal'⟩ :=
        h.step (List.mem_map_of_mem hmem) hshared (hthreads use phase hmem)
      refine ⟨huses ▸ hshared', fun use' phase' hmem' => ?_⟩
      -- the thread that moved is where `step` leaves it; the others stay, and are not disturbed
      rcases List.mem_or_eq_of_mem_set hmem' with hmem' | heq
      · exact h.stable (hthreads use' phase' hmem') (hthreads use phase hmem)
      · obtain ⟨rfl, rfl⟩ := Prod.mk.inj heq
        exact hlocal'

/-- **What the atomic steps keep holds under every schedule.** -/
theorem run (h : m.Invariant Shared Local) {s : σ} (hs : Shared [] s) (moves : List (Move υ)) :
    (m.run s moves).Holds Shared Local := by
  have hstart : Pool.Holds Shared Local (⟨s, []⟩ : Pool σ υ φ) :=
    ⟨hs, fun _ _ hmem => nomatch hmem⟩
  unfold Machine.run
  generalize (⟨s, []⟩ : Pool σ υ φ) = p at hstart
  induction moves generalizing p with
  | nil => exact hstart
  | cons move moves ih => exact ih _ (h.advance hstart move)

/-- What every atomic step keeps of the shared state may join what is known to hold. -/
theorem and_shared (h : m.Invariant Shared Local) {Kept : σ → Prop}
    (hkept : ∀ use phase s, Kept s → Local use phase s → Kept (m.step use phase s).2) :
    m.Invariant (fun uses s => Shared uses s ∧ Kept s) Local where
  launch use hs := ⟨h.launch use hs.1, hs.2⟩
  start := h.start
  step huse hs hlocal :=
    have ⟨hshared, hnext⟩ := h.step huse hs.1 hlocal
    ⟨⟨hshared, hkept _ _ _ hs.2 hlocal⟩, hnext⟩
  stable := h.stable

end Invariant

/-! ## 3. Uses that nothing interrupts -/

/-- A use gets from a phase and a state to others by steps of its own. -/
def Alone (m : Machine σ υ φ) (use : υ) : φ × σ → φ × σ → Prop :=
  Relation.ReflTransGen fun x y => m.step use x.1 x.2 = y

namespace Alone

variable {m : Machine σ υ φ} {use : υ} {x y z : φ × σ}

theorem refl (m : Machine σ υ φ) (use : υ) (x : φ × σ) : m.Alone use x x :=
  Relation.ReflTransGen.refl

theorem step (h : m.step use x.1 x.2 = y) (hyz : m.Alone use y z) : m.Alone use x z :=
  Relation.ReflTransGen.head h hyz

/-- The steps of the last use that started. -/
theorem exists_moves (h : m.Alone use x y) (threads : List (υ × φ)) :
    ∃ moves, List.foldl m.advance ⟨x.2, threads ++ [(use, x.1)]⟩ moves =
      ⟨y.2, threads ++ [(use, y.1)]⟩ := by
  -- from the first step on: the thread that moves stays the last of the pool
  induction h using Relation.ReflTransGen.head_induction_on with
  | refl => exact ⟨[], rfl⟩
  | head hstep _ ih =>
    obtain ⟨moves, hmoves⟩ := ih
    refine ⟨.resume threads.length :: moves, ?_⟩
    subst hstep
    rw [List.foldl_cons, ← hmoves]
    simp [advance]

/-- A use that nothing interrupts keeps what every schedule keeps. -/
theorem holds {Shared : List υ → σ → Prop} {Local : υ → φ → σ → Prop} (hxy : m.Alone use x y)
    (h : m.Invariant Shared Local) {uses : List υ} (huse : use ∈ uses)
    (hx : Shared uses x.2 ∧ Local use x.1 x.2) : Shared uses y.2 ∧ Local use y.1 y.2 := by
  induction hxy with
  | refl => exact hx
  | tail _ hstep ih =>
    subst hstep
    exact h.step huse ih.1 ih.2

end Alone

/-- **Uses one after the other are a schedule.** Where every use, left alone, changes what is seen
of the state as `apply` says, some schedule changes it as a sequence of uses does. -/
theorem exists_schedule {m : Machine σ υ φ} {view : σ → τ} {apply : τ → υ → τ}
    (h : ∀ use s, ∃ phase s', m.Alone use (m.start use, s) (phase, s') ∧
      view s' = apply (view s) use) (s : σ) (uses : List υ) :
    ∃ moves, view (m.run s moves).shared = uses.foldl apply (view s) := by
  -- uses that are over stay in the pool, so the statement is about any pool
  suffices hfrom : ∀ p : Pool σ υ φ, ∃ moves,
      view (List.foldl m.advance p moves).shared = uses.foldl apply (view p.shared) from
    hfrom ⟨s, []⟩
  induction uses with
  | nil => exact fun p => ⟨[], rfl⟩
  | cons use uses ih =>
    intro p
    obtain ⟨phase, s', halone, hview⟩ := h use p.shared
    obtain ⟨steps, hsteps⟩ := halone.exists_moves p.threads
    obtain ⟨moves, hmoves⟩ := ih ⟨s', p.threads ++ [(use, phase)]⟩
    refine ⟨.launch use :: (steps ++ moves), ?_⟩
    rw [List.foldl_cons, List.foldl_append, List.foldl_cons, ← hview, ← hmoves]
    exact congrArg (fun p => view (List.foldl m.advance p moves).shared) hsteps

end Machine

end PeerTrust
