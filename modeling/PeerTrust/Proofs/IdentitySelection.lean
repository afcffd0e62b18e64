import PeerTrust.Key.Manager
import PeerTrust.Proofs.OcspAcceptance

/-!
# Which identity is presented

A peer says which signature schemes it accepts, and may hint at issuers. Schemes decide, hints only
prefer.

* `Identity.CanSign` and `Identity.IssuedUnder` are what the peer asks of an identity;
* `KeyManager.Selects` is the choice among the identities in order: `KeyManager.choose_eq_iff`;
* `KeyManagers.Selects` is the choice among several managers: `KeyManagers.forClient_eq_some_iff`,
  and `KeyManagers.forClient_eq_none_iff` where there is none;
* `KeyManagers.choice_prefers_hinted` puts these together with what follows for the hints.
-/

namespace PeerTrust

/-! ## 1. What a peer asks of an identity -/

namespace Identity

variable {i : Identity} {offered : List SchemeCode} {hints : List Bytes}

/-- The key signs with one of some schemes. -/
def CanSign (i : Identity) (offered : List SchemeCode) : Prop :=
  ∃ scheme ∈ i.key.kind.schemes, scheme ∈ offered

/-- A certificate of the chain, not only the leaf, was issued under one of some names. -/
def IssuedUnder (i : Identity) (hints : List Bytes) : Prop := ∃ c ∈ i.chain, c.issuer ∈ hints

theorem signsWith_iff : i.key.signsWith offered = true ↔ i.CanSign offered := by
  simp only [SigningKey.signsWith, CanSign, List.any_eq_true, List.contains_iff_mem]

theorem isHintedAt_iff : i.isHintedAt hints = true ↔ i.IssuedUnder hints := by
  simp only [isHintedAt, issuers, IssuedUnder, List.any_map, List.any_eq_true, Function.comp_apply,
    List.contains_iff_mem]

theorem not_issuedUnder_nil : ¬ i.IssuedUnder [] := by
  rintro ⟨c, -, hmem⟩
  exact absurd hmem List.not_mem_nil

end Identity

/-! ## 2. One manager -/

namespace KeyManager

variable {m : KeyManager} {offered : List SchemeCode} {hints : List Bytes} {i : Identity}
  {chosen : Option Identity}

/-- The choice among the identities of a manager, in order. -/
inductive Selects (m : KeyManager) (offered : List SchemeCode) (hints : List Bytes) :
    Option Identity → Prop where
  /-- The first that can sign and is hinted at. -/
  | hinted {i : Identity}
      (first : IsFirst (fun i => i.CanSign offered ∧ i.IssuedUnder hints) m.identities i) :
      Selects m offered hints (some i)
  /-- None is both, and this is the first that can sign. -/
  | unhinted {i : Identity}
      (unmet : ∀ i ∈ m.identities, i.CanSign offered → ¬ i.IssuedUnder hints)
      (first : IsFirst (·.CanSign offered) m.identities i) : Selects m offered hints (some i)
  /-- None can sign. -/
  | nothing (unable : ∀ i ∈ m.identities, ¬ i.CanSign offered) : Selects m offered hints none

/-- The two searches of a choice, over all identities. -/
theorem choose_eq (m : KeyManager) (offered : List SchemeCode) (hints : List Bytes) :
    m.choose offered hints =
      (m.identities.find? fun i => i.key.signsWith offered && i.isHintedAt hints).or
        (m.identities.find? (·.key.signsWith offered)) := by
  simp only [choose, List.find?_filter, List.head?_filter, Bool.decide_and, Bool.decide_eq_true]

theorem find?_hinted_eq_some_iff :
    (m.identities.find? fun i => i.key.signsWith offered && i.isHintedAt hints) = some i ↔
      IsFirst (fun i => i.CanSign offered ∧ i.IssuedUnder hints) m.identities i :=
  find?_eq_some_iff_isFirst fun _ => by
    rw [Bool.and_eq_true, Identity.signsWith_iff, Identity.isHintedAt_iff]

theorem find?_hinted_eq_none_iff :
    (m.identities.find? fun i => i.key.signsWith offered && i.isHintedAt hints) = none ↔
      ∀ i ∈ m.identities, i.CanSign offered → ¬ i.IssuedUnder hints := by
  simp only [List.find?_eq_none, Bool.and_eq_true, Identity.signsWith_iff,
    Identity.isHintedAt_iff, not_and]

theorem find?_able_eq_some_iff : m.identities.find? (·.key.signsWith offered) = some i ↔
    IsFirst (·.CanSign offered) m.identities i :=
  find?_eq_some_iff_isFirst fun _ => Identity.signsWith_iff

theorem find?_able_eq_none_iff : m.identities.find? (·.key.signsWith offered) = none ↔
    ∀ i ∈ m.identities, ¬ i.CanSign offered := by
  simp only [List.find?_eq_none, Identity.signsWith_iff]

/-- **What is chosen is the choice.** -/
theorem choose_eq_iff : m.choose offered hints = chosen ↔ Selects m offered hints chosen := by
  rw [choose_eq]
  constructor
  · rintro rfl
    cases hhinted : m.identities.find? fun i => i.key.signsWith offered && i.isHintedAt hints with
    | some i => exact .hinted (find?_hinted_eq_some_iff.mp hhinted)
    | none =>
      rw [Option.none_or]
      cases hable : m.identities.find? (·.key.signsWith offered) with
      | some i =>
        exact .unhinted (find?_hinted_eq_none_iff.mp hhinted) (find?_able_eq_some_iff.mp hable)
      | none => exact .nothing (find?_able_eq_none_iff.mp hable)
  · intro h
    cases h with
    | hinted first => rw [find?_hinted_eq_some_iff.mpr first, Option.some_or]
    | unhinted unmet first =>
      rw [find?_hinted_eq_none_iff.mpr unmet, Option.none_or, find?_able_eq_some_iff.mpr first]
    | nothing unable =>
      rw [find?_hinted_eq_none_iff.mpr fun i hi hcan => absurd hcan (unable i hi), Option.none_or,
        find?_able_eq_none_iff.mpr unable]

/-- There is a choice unless no identity can sign, whatever the hints are. -/
theorem choose_eq_none_iff :
    m.choose offered hints = none ↔ ∀ i ∈ m.identities, ¬ i.CanSign offered := by
  rw [choose_eq_iff]
  constructor
  · intro h
    cases h with
    | nothing unable => exact unable
  · exact .nothing

/-- Without hints, the first identity that can sign is chosen. -/
theorem choose_unhinted : m.choose offered [] = some i ↔
    IsFirst (·.CanSign offered) m.identities i := by
  rw [choose_eq_iff]
  constructor
  · intro h
    cases h with
    | hinted first =>
      obtain ⟨-, -, -, ⟨-, hissued⟩, -⟩ := first
      exact absurd hissued Identity.not_issuedUnder_nil
    | unhinted _ first => exact first
  · exact .unhinted fun _ _ _ => Identity.not_issuedUnder_nil

/-- What is chosen is one of the identities, and can sign. -/
theorem able_of_choose (h : m.choose offered hints = some i) :
    i ∈ m.identities ∧ i.CanSign offered := by
  rw [choose_eq_iff] at h
  cases h with
  | hinted first =>
    have hmem := first.mem
    obtain ⟨-, -, -, ⟨hcan, -⟩, -⟩ := first
    exact ⟨hmem, hcan⟩
  | unhinted _ first =>
    have hmem := first.mem
    obtain ⟨-, -, -, hcan, -⟩ := first
    exact ⟨hmem, hcan⟩

/-- Hints are a set of names. -/
theorem choose_congr_hints {hints' : List Bytes} (h : ∀ name, name ∈ hints ↔ name ∈ hints') :
    m.choose offered hints = m.choose offered hints' := by
  have hissued (i : Identity) : i.isHintedAt hints = i.isHintedAt hints' := by
    rw [Bool.eq_iff_iff, Identity.isHintedAt_iff, Identity.isHintedAt_iff]
    simp only [Identity.IssuedUnder, h]
  simp only [choose, hissued]

end KeyManager

/-! ## 3. Several managers -/

namespace KeyManagers

variable {ms : KeyManagers} {offered : List SchemeCode} {hints : List Bytes} {i : Identity}

/-- The choice among the identities of several managers: that of the first manager with an identity
that can sign. -/
def Selects (ms : KeyManagers) (offered : List SchemeCode) (hints : List Bytes) (i : Identity) :
    Prop :=
  ∃ m, IsFirst (fun m : KeyManager => ∃ i ∈ m.identities, i.CanSign offered) ms m ∧
    m.Selects offered hints (some i)

theorem forClient_eq_some_iff : ms.forClient hints offered = some i ↔ ms.Selects offered hints i := by
  have hable (m : KeyManager) : m.choose offered hints = none ↔
      ¬ ∃ i ∈ m.identities, i.CanSign offered := by
    rw [KeyManager.choose_eq_none_iff]
    simp only [not_exists, not_and]
  have hsome {m : KeyManager} (h : m.choose offered hints = some i) :
      ∃ i ∈ m.identities, i.CanSign offered := ⟨i, KeyManager.able_of_choose h⟩
  rw [forClient, List.findSome?_eq_some_iff]
  constructor
  · rintro ⟨before, m, after, rfl, hm, hbefore⟩
    refine ⟨m, ⟨before, after, rfl, hsome hm, fun m' hm' => ?_⟩, KeyManager.choose_eq_iff.mp hm⟩
    exact (hable m').mp (hbefore m' hm')
  · rintro ⟨m, ⟨before, after, rfl, -, hbefore⟩, hm⟩
    refine ⟨before, m, after, rfl, KeyManager.choose_eq_iff.mpr hm, fun m' hm' => ?_⟩
    exact (hable m').mpr (hbefore m' hm')

theorem forClient_eq_none_iff : ms.forClient hints offered = none ↔
    ∀ m ∈ ms, ∀ i ∈ m.identities, ¬ i.CanSign offered := by
  simp only [forClient, List.findSome?_eq_none_iff, KeyManager.choose_eq_none_iff]

/-- **Schemes decide, hints only prefer.** A manager presents the first identity that can sign and
is hinted at, or else the first that can sign, and none exactly if none can sign. Hints make no
difference to whether there is a choice, and none but by which names are among them. Of several
managers the first with an identity that can sign chooses, and a server chooses as a client does to
whom nothing is hinted. -/
theorem choice_prefers_hinted (ms : KeyManagers) (offered : List SchemeCode) (hints : List Bytes) :
    (∀ m : KeyManager,
      (∀ chosen, m.choose offered hints = chosen ↔ m.Selects offered hints chosen) ∧
      (∀ i, m.choose offered [] = some i ↔ IsFirst (·.CanSign offered) m.identities i) ∧
      (m.choose offered hints = none ↔ ∀ i ∈ m.identities, ¬ i.CanSign offered) ∧
      (m.choose offered hints).isSome = (m.choose offered []).isSome ∧
      (∀ i, m.choose offered hints = some i → i ∈ m.identities ∧ i.CanSign offered) ∧
      ∀ hints', (∀ name, name ∈ hints ↔ name ∈ hints') →
        m.choose offered hints = m.choose offered hints') ∧
    (∀ i, ms.forClient hints offered = some i ↔ ms.Selects offered hints i) ∧
    (ms.forClient hints offered = none ↔ ∀ m ∈ ms, ∀ i ∈ m.identities, ¬ i.CanSign offered) ∧
    ms.forClient [] offered = ms.forServer offered := by
  refine ⟨fun m => ⟨fun _ => KeyManager.choose_eq_iff, fun _ => KeyManager.choose_unhinted,
    KeyManager.choose_eq_none_iff, ?_, fun _ => KeyManager.able_of_choose,
    fun _ => KeyManager.choose_congr_hints⟩, fun _ => forClient_eq_some_iff, forClient_eq_none_iff,
    rfl⟩
  have hnone : m.choose offered hints = none ↔ m.choose offered [] = none := by
    rw [KeyManager.choose_eq_none_iff, KeyManager.choose_eq_none_iff]
  rw [Bool.eq_iff_iff, Option.isSome_iff_ne_none, Option.isSome_iff_ne_none, ne_eq, hnone]

end KeyManagers

end PeerTrust
