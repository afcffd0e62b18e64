import Mathlib.Data.List.Induction
import PeerTrust.Ocsp.Cache
import PeerTrust.Proofs.CacheContents

/-!
# What happened to the answers that are kept

* `RecordedAnswer` is an answer with the certificate that it was recorded for; `OcspEvent` is what
  happens to the answers kept, `OcspEvent.replay` the cache that a log of events leaves;
* `LastRecorded` says that nothing was recorded after an answer under its key, `Stands` also that no
  sweep dropped it;
* `mem_replay_iff` and `find?_replay_iff`: what is kept is what stands.
-/

namespace PeerTrust

/-- An answer that was recorded for a certificate of an issuer at a time. -/
structure RecordedAnswer where
  c : Certificate
  issuer : Certificate
  now : Nat
  answer : Ocsp.Answer
deriving DecidableEq

namespace RecordedAnswer

/-- What it is kept under. -/
def key (a : RecordedAnswer) : OcspKey := .of a.c a.issuer

/-- What is kept of it. -/
def kept (a : RecordedAnswer) : Kept Ocsp.Status := ⟨a.answer.status, a.now, a.answer.nextUpdate⟩

end RecordedAnswer

/-- What happens to the answers that are kept: one is put in place of what was under its key, or
those that expired are dropped. -/
inductive OcspEvent where
  | recorded (a : RecordedAnswer)
  | swept (now : Nat)
deriving DecidableEq

namespace OcspEvent

/-- What an event leaves of a cache. -/
def apply (lifetime : Nat) (cache : OcspCache) : OcspEvent → OcspCache
  | recorded a => cache.insert a.key a.kept
  | swept now => cache.sweep lifetime now

/-- What a log of events leaves of a cache that kept nothing. -/
def replay (lifetime : Nat) (log : List OcspEvent) : OcspCache :=
  log.foldl (apply lifetime) .empty

theorem replay_concat (lifetime : Nat) (log : List OcspEvent) (e : OcspEvent) :
    replay lifetime (log ++ [e]) = e.apply lifetime (replay lifetime log) := by
  simp [replay]

end OcspEvent

open OcspEvent (replay)

/-! ## 1. The last answer under a key -/

variable {lifetime : Nat} {log since : List OcspEvent} {a a' : RecordedAnswer} {e : OcspEvent}

/-- An answer is the last that was recorded under its key; `since` is what happened after that. -/
structure LastRecorded (log : List OcspEvent) (a : RecordedAnswer) (since : List OcspEvent) :
    Prop where
  logged : ∃ before, log = before ++ .recorded a :: since
  last : ∀ a', .recorded a' ∈ since → a'.key ≠ a.key

theorem lastRecorded_concat_iff : LastRecorded (log ++ [e]) a since ↔
    (since = [] ∧ e = .recorded a) ∨
      ∃ since', since = since' ++ [e] ∧ LastRecorded log a since' ∧
        ∀ a', e = .recorded a' → a'.key ≠ a.key := by
  constructor
  · intro h
    obtain ⟨⟨before, hlog⟩, hlast⟩ := h
    -- the last event recorded the answer, or it is the last of those since
    rcases List.eq_nil_or_concat since with rfl | ⟨since', e', rfl⟩
    · exact .inl ⟨rfl, List.singleton_inj.mp (List.append_inj' hlog rfl).2⟩
    · rw [List.concat_eq_append] at hlog hlast ⊢
      have hsplit : log ++ [e] = (before ++ .recorded a :: since') ++ [e'] := by simpa using hlog
      obtain ⟨hbefore, he⟩ := List.append_inj' hsplit rfl
      obtain rfl : e = e' := List.singleton_inj.mp he
      refine .inr ⟨since', rfl, ⟨⟨before, hbefore⟩, fun a' hmem => hlast a' ?_⟩, fun a' ha' =>
        hlast a' ?_⟩
      · exact List.mem_append_left _ hmem
      · exact List.mem_append_right _ (List.mem_singleton.mpr ha'.symm)
  · intro h
    rcases h with ⟨rfl, rfl⟩ | ⟨since', rfl, ⟨⟨before, hlog⟩, hlast⟩, he⟩
    · exact ⟨⟨log, rfl⟩, by simp⟩
    · refine ⟨⟨before, by simp [hlog]⟩, fun a' hmem => ?_⟩
      rcases List.mem_append.mp hmem with hmem | hmem
      · exact hlast a' hmem
      · exact he a' (List.mem_singleton.mp hmem).symm

/-- After an answer was recorded there is a last one under its key: it, or one that came later. -/
theorem exists_lastRecorded (before : List OcspEvent) (a : RecordedAnswer)
    (since : List OcspEvent) : ∃ a' since',
      LastRecorded (before ++ .recorded a :: since) a' since' ∧ a'.key = a.key ∧
        (a' = a ∨ .recorded a' ∈ since) ∧ since' ⊆ since := by
  induction since using List.reverseRecOn with
  | nil => exact ⟨a, [], ⟨⟨before, rfl⟩, by simp⟩, rfl, .inl rfl, List.Subset.refl _⟩
  | append_singleton since e ih =>
    have hlog : before ++ .recorded a :: (since ++ [e]) =
        (before ++ .recorded a :: since) ++ [e] := by simp
    rw [hlog]
    by_cases he : ∃ b, e = .recorded b ∧ b.key = a.key
    · obtain ⟨b, rfl, hkey⟩ := he
      exact ⟨b, [], lastRecorded_concat_iff.mpr (.inl ⟨rfl, rfl⟩), hkey, .inr (by simp),
        List.nil_subset _⟩
    · obtain ⟨a', since', hlast, hkey, ha', hsince⟩ := ih
      refine ⟨a', since' ++ [e], lastRecorded_concat_iff.mpr (.inr ⟨since', rfl, hlast, ?_⟩), hkey,
        ha'.imp_right (List.mem_append_left _), List.append_subset.mpr ⟨?_, ?_⟩⟩
      · intro b hb hb'
        exact he ⟨b, hb, hb'.trans hkey⟩
      · exact List.subset_append_of_subset_left _ hsince
      · exact List.subset_append_right _ _

/-! ## 2. Answers that stand -/

/-- An answer is the last under its key, and no sweep since then found it expired. -/
def Stands (lifetime : Nat) (log : List OcspEvent) (a : RecordedAnswer) : Prop :=
  ∃ since, LastRecorded log a since ∧
    ∀ now, .swept now ∈ since → a.kept.isExpired lifetime now = false

theorem not_stands_nil : ¬ Stands lifetime [] a := by
  intro h
  obtain ⟨since, ⟨⟨before, hlog⟩, -⟩, -⟩ := h
  simp at hlog

theorem stands_recorded_iff : Stands lifetime (log ++ [.recorded a']) a ↔
    a = a' ∨ (a.key ≠ a'.key ∧ Stands lifetime log a) := by
  simp only [Stands, lastRecorded_concat_iff, OcspEvent.recorded.injEq]
  constructor
  · intro h
    obtain ⟨since, ⟨rfl, rfl⟩ | ⟨since', rfl, hlast, hkey⟩, hswept⟩ := h
    · exact .inl rfl
    · exact .inr ⟨(hkey a' rfl).symm, since', hlast, fun now hmem =>
        hswept now (List.mem_append_left _ hmem)⟩
  · intro h
    rcases h with rfl | ⟨hkey, since, hlast, hswept⟩
    · exact ⟨[], .inl ⟨rfl, rfl⟩, by simp⟩
    · refine ⟨since ++ [.recorded a'], .inr ⟨since, rfl, hlast, ?_⟩, fun now hmem => ?_⟩
      · rintro _ rfl
        exact hkey.symm
      · exact hswept now (by simpa using hmem)

theorem stands_swept_iff {now : Nat} : Stands lifetime (log ++ [.swept now]) a ↔
    Stands lifetime log a ∧ a.kept.isExpired lifetime now = false := by
  simp only [Stands, lastRecorded_concat_iff, reduceCtorEq, and_false, false_or, false_implies,
    implies_true, and_true]
  constructor
  · intro h
    obtain ⟨_, ⟨since, rfl, hlast⟩, hswept⟩ := h
    refine ⟨⟨since, hlast, fun t hmem => ?_⟩, ?_⟩
    · exact hswept t (List.mem_append_left _ hmem)
    · exact hswept now (List.mem_append_right _ List.mem_cons_self)
  · intro h
    obtain ⟨⟨since, hlast, hswept⟩, hfresh⟩ := h
    refine ⟨_, ⟨since, rfl, hlast⟩, fun t hmem => ?_⟩
    rcases List.mem_append.mp hmem with hmem | hmem
    · exact hswept t hmem
    · obtain rfl : t = now := by simpa using hmem
      exact hfresh

/-- Under one key, one answer stands. -/
theorem Stands.unique (h : Stands lifetime log a) (h' : Stands lifetime log a')
    (hkey : a.key = a'.key) : a = a' := by
  -- from the end of the log, where the last word on a key is
  induction log using List.reverseRecOn with
  | nil => exact absurd h not_stands_nil
  | append_singleton log e ih =>
    cases e with
    | swept now => exact ih (stands_swept_iff.mp h).1 (stands_swept_iff.mp h').1
    | recorded b =>
      rcases stands_recorded_iff.mp h with rfl | ⟨hb, h⟩
      · rcases stands_recorded_iff.mp h' with rfl | ⟨hb', -⟩
        · rfl
        · exact absurd hkey.symm hb'
      · rcases stands_recorded_iff.mp h' with rfl | ⟨-, h'⟩
        · exact absurd hkey hb
        · exact ih h h'

/-! ## 3. What is kept -/

/-- **What is kept is what stands.** -/
theorem mem_replay_iff {key : OcspKey} {kept : Kept Ocsp.Status} :
    (key, kept) ∈ (replay lifetime log).entries ↔
      ∃ a, Stands lifetime log a ∧ a.key = key ∧ a.kept = kept := by
  induction log using List.reverseRecOn with
  | nil => simp [replay, Cache.empty, not_stands_nil]
  | append_singleton log e ih =>
    rw [OcspEvent.replay_concat]
    cases e with
    | swept now =>
      simp only [OcspEvent.apply, Cache.mem_sweep_iff, ih, stands_swept_iff]
      constructor
      · rintro ⟨⟨a, hstands, rfl, rfl⟩, hfresh⟩
        exact ⟨a, ⟨hstands, hfresh⟩, rfl, rfl⟩
      · rintro ⟨a, ⟨hstands, hfresh⟩, rfl, rfl⟩
        exact ⟨⟨a, hstands, rfl, rfl⟩, hfresh⟩
    | recorded b =>
      simp only [OcspEvent.apply, Cache.mem_insert_iff, ih, stands_recorded_iff]
      constructor
      · rintro (⟨rfl, rfl⟩ | ⟨hkey, a, hstands, rfl, rfl⟩)
        · exact ⟨b, .inl rfl, rfl, rfl⟩
        · exact ⟨a, .inr ⟨hkey, hstands⟩, rfl, rfl⟩
      · rintro ⟨a, rfl | ⟨hkey, hstands⟩, rfl, rfl⟩
        · exact .inl ⟨rfl, rfl⟩
        · exact .inr ⟨hkey, a, hstands, rfl, rfl⟩

/-- **What is found is what stands.** -/
theorem find?_replay_iff {key : OcspKey} {kept : Kept Ocsp.Status} :
    (replay lifetime log).find? key = some kept ↔
      ∃ a, Stands lifetime log a ∧ a.key = key ∧ a.kept = kept := by
  rw [← mem_replay_iff]
  refine Cache.find?_eq_some_iff_mem fun k k' hk hk' => ?_
  obtain ⟨a, hstands, hkey, rfl⟩ := mem_replay_iff.mp hk
  obtain ⟨a', hstands', hkey', rfl⟩ := mem_replay_iff.mp hk'
  rw [hstands.unique hstands' (hkey.trans hkey'.symm)]

end PeerTrust
