import PeerTrust.Proofs.PathSoundness

/-!
# The order in which intermediates are presented

The walk searches what is left of a pool by position, and every certificate that it takes away
changes the order of the others.

* `Path.take?_of_perm`, `Path.take?_none_of_perm`: where at most one of a pool will do, the same one
  is taken from the pool in any order and with others added, and the same is left but for the order
  and those others;
* `Path.Reaches` are the certificates that a walk comes to. `Path.walk_of_perm`: a walk is the same
  over both pools if each of these has at most one issuer in the one, and none among those added;
* `Path.SoleIssuer` says so of positions: `Path.SoleIssuer.countP_readable_le`;
* `Path.build_of_rearranged`: so without cross-certificates, neither the order of what is presented
  nor what is of no use in it makes a difference.
-/

namespace PeerTrust

namespace Path

open scoped List

/-! ## 1. One that will do -/

section Pools

variable {α : Type} {p : α → Bool} {pool pool' added others : List α} {x : α}

theorem take?_eq_none_iff : take? p pool = none ↔ ∀ x ∈ pool, p x = false := by
  refine ⟨fun h x hx => ?_, take?_eq_none⟩
  cases hp : p x with
  | false => rfl
  | true =>
    obtain ⟨y, others, htake⟩ := exists_take? hx hp
    cases h.symm.trans htake

/-- Where none will do, none of those added does. -/
theorem take?_none_of_perm (hperm : pool'.Perm (pool ++ added))
    (hadded : ∀ x ∈ added, p x = false) (h : take? p pool = none) : take? p pool' = none := by
  rw [take?_eq_none_iff] at h ⊢
  intro x hx
  rcases List.mem_append.mp (hperm.subset hx) with hx | hx
  · exact h x hx
  · exact hadded x hx

/-- Of those left behind by the only one that will do, none does. -/
theorem others_of_countP_le (hone : pool.countP p ≤ 1) (h : take? p pool = some (x, others)) :
    ∀ y ∈ others, p y = false := by
  obtain ⟨hx, hpool⟩ := take?_eq_some h
  have hcount : others.countP p = 0 := by
    rw [← hpool.countP_eq, List.countP_cons_of_pos hx] at hone
    omega
  intro y hy
  exact eq_false_of_ne_true (List.countP_eq_zero.mp hcount y hy)

/-- **The only one that will do is taken**, wherever it stands among others. -/
theorem take?_of_perm (hperm : pool'.Perm (pool ++ added)) (hadded : ∀ x ∈ added, p x = false)
    (hone : pool.countP p ≤ 1) (h : take? p pool = some (x, others)) :
    ∃ others', take? p pool' = some (x, others') ∧ others'.Perm (others ++ added) := by
  obtain ⟨hx, hpool⟩ := take?_eq_some h
  have hall : pool' ~ x :: (others ++ added) :=
    hperm.trans (hpool.symm.append_right added)
  obtain ⟨y, others', htake⟩ := exists_take? (hall.symm.subset List.mem_cons_self) hx
  obtain ⟨hy, hpool'⟩ := take?_eq_some htake
  have hsame : y = x := by
    rcases List.mem_cons.mp (hall.subset (hpool'.subset List.mem_cons_self)) with rfl | hmem
    · rfl
    · have hfalse : p y = false := by
        rcases List.mem_append.mp hmem with hmem | hmem
        · exact others_of_countP_le hone h y hmem
        · exact hadded y hmem
      cases hy.symm.trans hfalse
  subst hsame
  exact ⟨others', htake, (hpool'.trans hall).cons_inv⟩

end Pools

/-! ## 2. The walk over another pool -/

/-- A walk comes to a certificate while there is room for one more link. -/
inductive ComesTo (anchors : List Certificate) : (room : Nat) → (current : Certificate) →
    (pool : List Certificate) → Certificate → Prop where
  | here {room : Nat} {current : Certificate} {pool : List Certificate} :
      ComesTo anchors (room + 1) current pool current
  | above {room : Nat} {current issuer c : Certificate} {pool others : List Certificate}
      (below : anchors.find? current.isIssuedBy = none)
      (taken : take? current.isIssuedBy pool = some (issuer, others))
      (rest : ComesTo anchors room issuer others c) : ComesTo anchors (room + 1) current pool c

/-- **A walk does not depend on the order of its pool**, nor on certificates that issued none of
those it comes to, as long as each of these has at most one issuer in the pool. -/
theorem walk_of_perm {anchors : List Certificate} {room : Nat} {current : Certificate}
    {pool pool' added : List Certificate} (hperm : pool'.Perm (pool ++ added))
    (hone : ∀ c, ComesTo anchors room current pool c → pool.countP c.isIssuedBy ≤ 1)
    (hadded : ∀ c, ComesTo anchors room current pool c → ∀ x ∈ added, c.isIssuedBy x = false) :
    walk anchors room current pool' = walk anchors room current pool := by
  induction room generalizing current pool pool' with
  | zero => rfl
  | succ room ih =>
    unfold walk
    cases hfind : anchors.find? current.isIssuedBy with
    | some anchor => rfl
    | none =>
      cases htake : take? current.isIssuedBy pool with
      | none => rw [take?_none_of_perm hperm (hadded current .here) htake]
      | some taken =>
        obtain ⟨issuer, others⟩ := taken
        obtain ⟨others', htake', hothers⟩ :=
          take?_of_perm hperm (hadded current .here) (hone current .here) htake
        -- fewer are left, so that there still is at most one issuer of each
        have hfewer (c : Certificate) : others.countP c.isIssuedBy ≤ pool.countP c.isIssuedBy := by
          rw [← (take?_eq_some htake).2.countP_eq, List.countP_cons]
          exact Nat.le_add_right _ _
        have hrest : walk anchors room issuer others' = walk anchors room issuer others := by
          refine ih hothers (fun c hc => ?_) fun c hc => ?_
          · exact (hfewer c).trans (hone c (.above hfind htake hc))
          · exact hadded c (.above hfind htake hc)
        rw [htake']
        simp only [hrest]

/-! ## 3. What is presented -/

/-- The certificates that the walk from an end entity comes to. -/
def Reaches (endEntity : Bytes) (intermediates : List Bytes) (anchors : List Certificate)
    (c : Certificate) : Prop :=
  ∃ first, Certificate.ofDer endEntity = .ok first ∧
    ComesTo anchors maxLength first (readable intermediates) c

/-- Among what is presented, a certificate has at most one issuer, at one position. -/
def SoleIssuer (intermediates : List Bytes) (c : Certificate) : Prop :=
  ∀ i j x y, PresentedAt intermediates i x → PresentedAt intermediates j y →
    c.IssuedBy x → c.IssuedBy y → i = j

theorem SoleIssuer.countP_le {intermediates : List Bytes} {c : Certificate}
    (h : SoleIssuer intermediates c) {positions : List Nat} {certificates : List Certificate}
    (hnodup : positions.Nodup)
    (hat : List.Forall₂ (PresentedAt intermediates) positions certificates) :
    certificates.countP c.isIssuedBy ≤ 1 := by
  induction hat with
  | nil => exact Nat.zero_le 1
  | @cons i x positions certificates hx hrest ih =>
    obtain ⟨hi, hnodup⟩ := List.nodup_cons.mp hnodup
    by_cases hissued : c.isIssuedBy x = true
    · -- any other issuer would stand at the same position
      have hnone : certificates.countP c.isIssuedBy = 0 := by
        refine List.countP_eq_zero.mpr fun y hy hissued' => hi ?_
        have hpairs := (List.forall₂_and_left (p := (· ∈ positions)) _ _).mpr ⟨fun _ h => h, hrest⟩
        obtain ⟨j, hj, hat⟩ := exists_of_forall₂ hpairs.flip y hy
        exact h i j x y hx hat (Certificate.isIssuedBy_iff.mp hissued)
          (Certificate.isIssuedBy_iff.mp hissued') ▸ hj
      rw [List.countP_cons_of_pos hissued, hnone]
    · rw [List.countP_cons_of_neg hissued]
      exact ih hnodup

theorem SoleIssuer.countP_readable_le {intermediates : List Bytes} {c : Certificate}
    (h : SoleIssuer intermediates c) : (readable intermediates).countP c.isIssuedBy ≤ 1 := by
  obtain ⟨positions, hnodup, hat⟩ := exists_positions_readable intermediates
  exact h.countP_le hnodup hat

theorem readable_append (ders ders' : List Bytes) :
    readable (ders ++ ders') = readable ders ++ readable ders' := by
  simp only [readable, List.filterMap_append]

theorem mem_readable_iff {ders : List Bytes} {x : Certificate} :
    x ∈ readable ders ↔ ∃ der ∈ ders, Certificate.ofDer der = .ok x := by
  have hread (der : Bytes) :
      (Certificate.ofDer der).toOption = some x ↔ Certificate.ofDer der = .ok x := by
    cases Certificate.ofDer der <;> simp [Except.toOption]
  simp only [readable, List.mem_filterMap, hread]

/-- **Without cross-certificates, the order of what is presented makes no difference.** Where each
certificate that the walk comes to has at most one issuer among those presented, they may be
presented in any order, and others with them at any place that are unreadable or issued none of
those that the walk comes to: the links are the same, or else the error is. -/
theorem build_of_rearranged {endEntity : Bytes} {intermediates rearranged added : List Bytes}
    {anchors : List Certificate}
    (sole : ∀ c, Reaches endEntity intermediates anchors c → SoleIssuer intermediates c)
    (perm : rearranged.Perm (intermediates ++ added))
    (useless : ∀ der ∈ added, ∀ x, Certificate.ofDer der = .ok x →
      ∀ c, Reaches endEntity intermediates anchors c → ¬ c.IssuedBy x) :
    build endEntity rearranged anchors = build endEntity intermediates anchors := by
  unfold build
  cases hread : Certificate.ofDer endEntity with
  | error e => rfl
  | ok first =>
    have hreaches : ∀ c, ComesTo anchors maxLength first (readable intermediates) c →
        Reaches endEntity intermediates anchors c := fun c hc => ⟨first, hread, hc⟩
    have hpool : (readable rearranged).Perm (readable intermediates ++ readable added) := by
      rw [← readable_append]
      exact perm.filterMap _
    refine walk_of_perm hpool (fun c hc => ?_) fun c hc x hx => ?_
    · exact (sole c (hreaches c hc)).countP_readable_le
    · obtain ⟨der, hder, hx⟩ := mem_readable_iff.mp hx
      exact Certificate.isIssuedBy_eq_false_iff.mpr (useless der hder x hx c (hreaches c hc))

end Path

/-! ## 4. Two certificates in the other order -/

open AnswerSample (root)

namespace PathSample

/-- An issuer and a certificate that issues nothing, and what may be presented in their place. -/
def plain : List Bytes := [leaf.der, mid.der]

def shuffled : List Bytes := [mid.der, [], leaf.der, leaf.der]

theorem readable_plain : Path.readable plain = [leaf, mid] :=
  Path.readable_of_forall₂ (.cons ofDer_leaf (.cons ofDer_mid .nil))

theorem leaf_foreign (c : Certificate) (h : c = leaf ∨ c = mid) : c.isIssuedBy leaf = false := by
  rcases h with rfl | rfl
  · exact Path.isIssuedBy_of_foreign (by decide)
  · exact Path.isIssuedBy_of_foreign (by decide)

/-- The walk comes to the end entity and its issuer, which the root issued. -/
theorem reached_plain {c : Certificate} (h : Path.Reaches leaf.der plain [root] c) :
    c = leaf ∨ c = mid := by
  obtain ⟨first, hfirst, hcomes⟩ := h
  obtain rfl : leaf = first := Except.ok.inj (ofDer_leaf.symm.trans hfirst)
  cases hcomes with
  | here => exact .inl rfl
  | above _ taken rest =>
    rw [readable_plain] at taken
    obtain ⟨hissued, hperm⟩ := Path.take?_eq_some taken
    rcases List.mem_pair.mp (hperm.subset List.mem_cons_self) with rfl | rfl
    · cases hissued.symm.trans (leaf_foreign leaf (.inl rfl))
    · cases rest with
      | here => exact .inr rfl
      | above below _ _ => cases below.symm.trans (List.find?_cons_of_pos mid_issued)

theorem sole_plain {c : Certificate} (h : Path.Reaches leaf.der plain [root] c) :
    Path.SoleIssuer plain c := by
  have htwo (a b der : Bytes) (i : Nat) (hat : [a, b][i]? = some der) :
      (i = 0 ∧ a = der) ∨ (i = 1 ∧ b = der) := by
    match i with
    | 0 => exact .inl ⟨rfl, Option.some.inj hat⟩
    | 1 => exact .inr ⟨rfl, Option.some.inj hat⟩
    | i + 2 => cases hat
  -- the one at the first position issued nothing that the walk comes to
  have hsecond (i : Nat) (x : Certificate) (hx : Path.PresentedAt plain i x)
      (hissued : c.IssuedBy x) : i = 1 := by
    obtain ⟨der, hat, hread⟩ := hx
    rcases htwo leaf.der mid.der der i hat with ⟨-, rfl⟩ | ⟨hi, -⟩
    · obtain rfl : leaf = x := Except.ok.inj (ofDer_leaf.symm.trans hread)
      have hforeign := leaf_foreign c (reached_plain h)
      exact absurd hissued (Certificate.isIssuedBy_eq_false_iff.mp hforeign)
    · exact hi
  intro i j x y hx hy hissued hissued'
  rw [hsecond i x hx hissued, hsecond j y hy hissued']

end PathSample

open PathSample in
theorem Path.build_of_shuffled :
    shuffled.Perm (plain ++ [[], leaf.der]) ∧
      build leaf.der shuffled [root] = build leaf.der plain [root] ∧
      build leaf.der plain [root] = .ok [⟨leaf, mid⟩, ⟨mid, root⟩] := by
  have hperm : shuffled.Perm (plain ++ [[], leaf.der]) := by
    have hlast : ([[], leaf.der] ++ [leaf.der]).Perm ([leaf.der] ++ [[], leaf.der]) :=
      List.perm_append_comm
    exact (hlast.cons mid.der).trans (List.Perm.swap _ _ _)
  have huseless : ∀ der ∈ [[], leaf.der], ∀ x, Certificate.ofDer der = .ok x →
      ∀ c, Reaches leaf.der plain [root] c → ¬ c.IssuedBy x := by
    intro der hder x hread c hc
    rcases List.mem_pair.mp hder with rfl | rfl
    · cases hread
    · obtain rfl : leaf = x := Except.ok.inj (ofDer_leaf.symm.trans hread)
      exact Certificate.isIssuedBy_eq_false_iff.mp (leaf_foreign c (reached_plain hc))
  have hbelow : [root].find? leaf.isIssuedBy = none := find?_of_foreign (by decide)
  have hmid : [root].find? mid.isIssuedBy = some root := List.find?_cons_of_pos mid_issued
  have htake : take? leaf.isIssuedBy [leaf, mid] = some (mid, [leaf]) := by
    simp [take?, List.findIdx?_cons, leaf_foreign leaf (.inl rfl), leaf_issued, swapRemove]
  refine ⟨hperm, build_of_rearranged (fun c => sole_plain) hperm huseless, ?_⟩
  rw [build, ofDer_leaf, readable_plain]
  exact walk_eq_ok_iff.mpr ⟨.climb hbelow htake (.arrive hmid), by decide⟩

end PeerTrust
