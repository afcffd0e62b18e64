import Mathlib.Data.List.Chain
import Mathlib.Data.List.Nodup
import Mathlib.Data.List.Perm.Subperm
import PeerTrust.Trust.Path

/-!
# What a built path is

* `Path.IsPath` states what a path is, without the walk that finds it: the end entity first, each
  certificate issued by the next one, the last one by an anchor, and those after the first at
  pairwise different positions of what was presented;
* `Path.Climbs` are the steps of a walk without the bound on their number; `walk_eq_ok_iff` puts
  the bound back. Every property of a walk is an induction over `Climbs`;
* `Path.take?_eq_some`: taking one certificate away loses that one only, whatever fills the gap;
* `Path.isPath_of_build`: what `Path.build` gives is a path.
-/

namespace PeerTrust.Path

/-! ## 1. Taking one away -/

section Take

open scoped List

variable {α : Type}

/-- What is taken and what is left are together what there was. -/
theorem cons_swapRemove_perm {xs : List α} {i : Nat} (h : i < xs.length) :
    (xs[i] :: swapRemove xs i).Perm xs := by
  obtain rfl | ⟨ys, last, rfl⟩ := xs.eq_nil_or_concat'
  · exact absurd h (Nat.not_lt_zero i)
  have hlen : (ys ++ [last]).length = ys.length + 1 := by simp
  have hremove : swapRemove (ys ++ [last]) i = ((ys ++ [last]).set i last).dropLast := by
    simp [swapRemove]
  rw [hremove]
  by_cases hi : i < ys.length
  · rw [List.set_append_left i last hi, List.dropLast_concat, List.getElem_append_left hi]
    calc ys[i] :: ys.set i last
      _ ~ ys[i] :: last :: ys.eraseIdx i := (List.set_perm_cons_eraseIdx hi last).cons _
      _ ~ last :: ys[i] :: ys.eraseIdx i := List.Perm.swap _ _ _
      _ ~ last :: ys := (List.getElem_cons_eraseIdx_perm hi).cons last
      _ ~ ys ++ [last] := (List.perm_append_singleton last ys).symm
  · -- the last one itself is taken, and there is no gap
    obtain rfl : i = ys.length := by omega
    simpa using (List.perm_append_singleton last ys).symm

theorem take?_eq_some {p : α → Bool} {xs others : List α} {x : α}
    (h : take? p xs = some (x, others)) : p x = true ∧ (x :: others).Perm xs := by
  unfold take? at h
  split at h
  · rename_i i y hi hy
    simp only [Option.some.injEq, Prod.mk.injEq] at h
    obtain ⟨rfl, rfl⟩ := h
    obtain ⟨hlt, hp, hbefore⟩ := List.findIdx?_eq_some_iff_getElem.mp hi
    have hat : xs[i] = y := by
      rw [List.find?_eq_getElem?_findIdx, (List.findIdx?_eq_some_iff_findIdx_eq.mp hi).2] at hy
      exact (List.getElem?_eq_some_iff.mp hy).2
    subst hat
    exact ⟨hp, cons_swapRemove_perm hlt⟩
  · cases h

end Take

/-! ## 2. The steps of a walk -/

/-- A walk from a certificate over a pool: it ends below the first anchor that issued the current
certificate, and else goes on with the first of the pool that did, which it takes away. -/
inductive Climbs (anchors : List Certificate) :
    (current : Certificate) → (pool : List Certificate) → List Link → Prop where
  | arrive {current anchor : Certificate} {pool : List Certificate}
      (found : anchors.find? current.isIssuedBy = some anchor) :
      Climbs anchors current pool [⟨current, anchor⟩]
  | climb {current issuer : Certificate} {pool others : List Certificate} {above : List Link}
      (below : anchors.find? current.isIssuedBy = none)
      (taken : take? current.isIssuedBy pool = some (issuer, others))
      (rest : Climbs anchors issuer others above) :
      Climbs anchors current pool (⟨current, issuer⟩ :: above)

variable {anchors : List Certificate}

/-- **A walk gives what it climbs, if there is room for it.** -/
theorem walk_eq_ok_iff {room : Nat} {current : Certificate} {pool : List Certificate}
    {links : List Link} :
    walk anchors room current pool = .ok links ↔
      Climbs anchors current pool links ∧ links.length ≤ room := by
  induction room generalizing current pool links with
  | zero =>
    simp only [walk, reduceCtorEq, Nat.le_zero, List.length_eq_zero_iff, false_iff]
    intro h
    obtain ⟨h, rfl⟩ := h
    cases h
  | succ room ih =>
    unfold walk
    constructor
    · intro h
      split at h
      · rename_i anchor found
        cases h
        exact ⟨.arrive found, by simp⟩
      · rename_i below
        split at h
        · cases h
        · rename_i issuer others taken
          cases habove : walk anchors room issuer others with
          | error e => rw [habove] at h; cases h
          | ok above =>
            rw [habove] at h
            cases h
            obtain ⟨rest, short⟩ := ih.mp habove
            exact ⟨.climb below taken rest, Nat.succ_le_succ short⟩
    · intro h
      obtain ⟨h, short⟩ := h
      cases h with
      | arrive found => rw [found]
      | climb below taken rest =>
        rw [below, taken]
        have habove := ih.mpr ⟨rest, Nat.le_of_succ_le_succ short⟩
        simp only [habove]
        rfl

namespace Climbs

variable {current : Certificate} {pool : List Certificate} {links : List Link}

theorem head (h : Climbs anchors current pool links) :
    ∃ issuer above, links = ⟨current, issuer⟩ :: above := by
  cases h with
  | arrive _ => exact ⟨_, _, rfl⟩
  | climb _ _ _ => exact ⟨_, _, rfl⟩

theorem issued (h : Climbs anchors current pool links) :
    ∀ link ∈ links, link.certificate.IssuedBy link.issuer := by
  induction h with
  | arrive found =>
    intro link hlink
    obtain rfl := List.mem_singleton.mp hlink
    exact Certificate.isIssuedBy_iff.mp (List.find?_some found)
  | climb _ taken _ ih =>
    intro link hlink
    rcases List.mem_cons.mp hlink with rfl | hlink
    · exact Certificate.isIssuedBy_iff.mp (take?_eq_some taken).1
    · exact ih link hlink

theorem linked (h : Climbs anchors current pool links) :
    links.IsChain fun link next => link.issuer = next.certificate := by
  induction h with
  | arrive _ => exact .singleton _
  | climb _ _ rest ih =>
    obtain ⟨issuer, above, rfl⟩ := rest.head
    exact .cons_cons rfl ih

theorem anchored (h : Climbs anchors current pool links) :
    ∃ link, links.getLast? = some link ∧ link.issuer ∈ anchors := by
  induction h with
  | arrive found => exact ⟨_, rfl, List.mem_of_find?_eq_some found⟩
  | climb _ _ rest ih =>
    obtain ⟨issuer, above, rfl⟩ := rest.head
    simpa using ih

/-- The certificates after the first one come from the pool, none more often than it is there. -/
theorem presented (h : Climbs anchors current pool links) :
    (links.tail.map (·.certificate)).Subperm pool := by
  induction h with
  | arrive _ => exact List.nil_subperm
  | climb _ taken rest ih =>
    obtain ⟨issuer, above, rfl⟩ := rest.head
    exact ((List.subperm_cons _).mpr ih).trans (take?_eq_some taken).2.subperm

end Climbs

/-! ## 3. Paths -/

/-- A certificate is presented at a position. -/
def PresentedAt (ders : List Bytes) (i : Nat) (c : Certificate) : Prop :=
  ∃ der, ders[i]? = some der ∧ Certificate.ofDer der = .ok c

/-- What is readable was presented, each certificate at a position of its own. -/
theorem exists_positions_readable (ders : List Bytes) :
    ∃ positions : List Nat, positions.Nodup ∧
      List.Forall₂ (PresentedAt ders) positions (readable ders) := by
  induction ders with
  | nil => exact ⟨[], List.nodup_nil, .nil⟩
  | cons der ders ih =>
    obtain ⟨positions, hnodup, hat⟩ := ih
    have hlater : (positions.map Nat.succ).Nodup := List.Nodup.map Nat.succ_injective hnodup
    have hat' : List.Forall₂ (PresentedAt (der :: ders)) (positions.map Nat.succ)
        (readable ders) := List.forall₂_map_left_iff.mpr hat
    cases hc : Certificate.ofDer der with
    | error e =>
      have hskip : readable (der :: ders) = readable ders := by
        simp [readable, hc, Except.toOption]
      exact ⟨_, hlater, hskip ▸ hat'⟩
    | ok c =>
      have htake : readable (der :: ders) = c :: readable ders := by
        simp [readable, hc, Except.toOption]
      refine ⟨0 :: positions.map Nat.succ, List.nodup_cons.mpr ⟨by simp, hlater⟩, ?_⟩
      rw [htake]
      exact .cons ⟨der, rfl, hc⟩ hat'

/-- What is taken from among certificates at positions of their own has such positions, too. -/
theorem exists_positions_of_subperm {ders : List Bytes} {positions : List Nat}
    {all some : List Certificate} (hnodup : positions.Nodup)
    (hat : List.Forall₂ (PresentedAt ders) positions all) (hsome : some.Subperm all) :
    ∃ positions' : List Nat, positions'.Nodup ∧
      List.Forall₂ (PresentedAt ders) positions' some := by
  obtain ⟨ordered, hperm, hsub⟩ := hsome
  -- drop the positions of what is left out, then reorder those that remain
  have hkept : ∃ kept : List Nat, kept.Sublist positions ∧
      List.Forall₂ (PresentedAt ders) kept ordered := by
    clear hnodup hperm
    induction hsub generalizing positions with
    | slnil => exact ⟨[], List.nil_sublist _, .nil⟩
    | cons _ _ ih =>
      cases hat with
      | cons _ hrest =>
        obtain ⟨kept, hk, hf⟩ := ih hrest
        exact ⟨kept, hk.cons _, hf⟩
    | cons_cons _ _ ih =>
      cases hat with
      | cons hfirst hrest =>
        obtain ⟨kept, hk, hf⟩ := ih hrest
        exact ⟨_ :: kept, hk.cons_cons _, .cons hfirst hf⟩
  obtain ⟨kept, hk, hf⟩ := hkept
  obtain ⟨positions', hf', hperm'⟩ := List.perm_comp_forall₂ hperm.symm hf.flip
  exact ⟨positions', hperm'.nodup_iff.mpr (hk.nodup hnodup), hf'.flip⟩

/-- A path from an end entity over presented certificates to one of the anchors. -/
structure IsPath (endEntity : Bytes) (intermediates : List Bytes) (anchors : List Certificate)
    (links : List Link) : Prop where
  /-- The end entity comes first. -/
  first : ∃ link above, links = link :: above ∧ Certificate.ofDer endEntity = .ok link.certificate
  /-- There are at most ten certificates. -/
  short : links.length ≤ 10
  /-- The others are presented, at pairwise different positions. -/
  presented : ∃ positions : List Nat, positions.Nodup ∧
    List.Forall₂ (PresentedAt intermediates) positions (links.tail.map (·.certificate))
  /-- Name and signature of each certificate are those of its issuer. -/
  issued : ∀ link ∈ links, link.certificate.IssuedBy link.issuer
  /-- The issuer of each certificate is the next one. -/
  linked : links.IsChain fun link next => link.issuer = next.certificate
  /-- The issuer of the last one is an anchor. -/
  anchored : ∃ link, links.getLast? = some link ∧ link.issuer ∈ anchors

/-- **What is built is a path.** -/
theorem isPath_of_build {endEntity : Bytes} {intermediates : List Bytes} {links : List Link}
    (h : build endEntity intermediates anchors = .ok links) :
    IsPath endEntity intermediates anchors links := by
  unfold build at h
  split at h
  · cases h
  · rename_i c hc
    obtain ⟨hclimbs, hshort⟩ := walk_eq_ok_iff.mp h
    obtain ⟨issuer, above, hlinks⟩ := hclimbs.head
    obtain ⟨positions, hnodup, hat⟩ := exists_positions_readable intermediates
    exact {
      first := ⟨⟨c, issuer⟩, above, hlinks, hc⟩
      short := hshort
      presented := exists_positions_of_subperm hnodup hat hclimbs.presented
      issued := hclimbs.issued
      linked := hclimbs.linked
      anchored := hclimbs.anchored }

end PeerTrust.Path
