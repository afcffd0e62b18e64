import PeerTrust.Proofs.OcspAcceptance
import PeerTrust.Proofs.PathCompleteness

/-!
# The walk as a loop

The walk goes round by round: it holds the links made so far, the current certificate and those
that were presented and not used yet. A round ends the walk, or makes one link more.

* `Path.Ascent` is where the walk stands, `Path.Ascent.round` makes one round of it;
* `Path.Ascent.Ends` is a walk that ends after a number of rounds; it ends in one way only
  (`Path.Ascent.Ends.unique`), and in the way that `Path.walk` says (`Path.Ascent.ends_walk`). Each
  round uses up a certificate, so circles do no harm (`Path.Ascent.Ends.rounds_le`);
* `Path.Found` is what is known of a path that was found: beside being a path, it goes to an anchor
  as soon as there is one, and to the first;
* `Path.build_sound`: the walk ends, whatever was presented, and what it finds is such a path.
-/

namespace PeerTrust

namespace Path

variable {anchors : List Certificate}

/-! ## 1. Rounds -/

/-- Where a walk stands. -/
structure Ascent where
  /-- The links made so far, the end entity first. -/
  links : List Link
  current : Certificate
  /-- The certificates that were presented and are not used yet. -/
  pool : List Certificate

namespace Ascent

/-- One round of a walk: it ends, or goes on to an issuer. -/
def round (anchors : List Certificate) (s : Ascent) : Except PathError (List Link) ⊕ Ascent :=
  if s.links.length < maxLength then
    match anchors.find? s.current.isIssuedBy with
    | some anchor => .inl (.ok (s.links ++ [⟨s.current, anchor⟩]))
    | none =>
      match take? s.current.isIssuedBy s.pool with
      | none => .inl (.error (.noIssuer s.current.displayName))
      | some (issuer, others) => .inr ⟨s.links ++ [⟨s.current, issuer⟩], issuer, others⟩
  else .inl (.error .tooLong)

/-- A walk ends after a number of rounds, with a result. -/
inductive Ends (anchors : List Certificate) :
    Nat → Ascent → Except PathError (List Link) → Prop where
  | stop {s : Ascent} {result : Except PathError (List Link)}
      (ended : round anchors s = .inl result) : Ends anchors 1 s result
  | next {rounds : Nat} {s s' : Ascent} {result : Except PathError (List Link)}
      (went : round anchors s = .inr s') (rest : Ends anchors rounds s' result) :
      Ends anchors (rounds + 1) s result

/-- A walk ends once. -/
theorem Ends.unique {rounds rounds' : Nat} {s : Ascent}
    {result result' : Except PathError (List Link)} (h : Ends anchors rounds s result)
    (h' : Ends anchors rounds' s result') : rounds' = rounds ∧ result' = result := by
  induction h generalizing rounds' with
  | stop ended =>
    cases h' with
    | stop ended' => exact ⟨rfl, Sum.inl.inj (ended'.symm.trans ended)⟩
    | next went' _ => exact absurd (ended.symm.trans went') Sum.inl_ne_inr
  | next went _ ih =>
    cases h' with
    | stop ended' => exact absurd (ended'.symm.trans went) Sum.inl_ne_inr
    | next went' rest' =>
      obtain rfl := Sum.inr.inj (went.symm.trans went')
      obtain ⟨hrounds, hresult⟩ := ih rest'
      exact ⟨congrArg (· + 1) hrounds, hresult⟩

/-- A round that goes on uses up one of those presented. -/
theorem round_pool {s s' : Ascent} (h : round anchors s = .inr s') :
    s'.pool.length + 1 = s.pool.length := by
  unfold round at h
  split at h
  · split at h
    · cases h
    · split at h
      · cases h
      · rename_i htake
        cases h
        exact (take?_eq_some htake).2.length_eq
  · cases h

/-- So there is no going round in circles, even of certificates that issued one another. -/
theorem Ends.rounds_le {rounds : Nat} {s : Ascent} {result : Except PathError (List Link)}
    (h : Ends anchors rounds s result) : rounds ≤ s.pool.length + 1 := by
  induction h with
  | stop _ => exact Nat.le_add_left 1 _
  | next went _ ih =>
    rw [← round_pool went]
    exact Nat.succ_le_succ ih

/-- What a walk finds from where it stands follows the links that it made. -/
def resume (s : Ascent) (above : Except PathError (List Link)) : Except PathError (List Link) :=
  above.map (s.links ++ ·)

/-- **The walk ends as `Path.walk` says**, after at most one round for each link that may still
follow, and a last one. -/
theorem ends_walk {room : Nat} {s : Ascent} (hroom : s.links.length + room = maxLength) :
    ∃ rounds ≤ room + 1, Ends anchors rounds s (s.resume (walk anchors room s.current s.pool)) := by
  induction room generalizing s with
  | zero =>
    have hfull : ¬ s.links.length < maxLength := by omega
    have hround : round anchors s = .inl (.error .tooLong) := if_neg hfull
    exact ⟨1, Nat.le_refl 1, .stop hround⟩
  | succ room ih =>
    have hspace : s.links.length < maxLength := by omega
    unfold walk
    cases hfind : anchors.find? s.current.isIssuedBy with
    | some anchor =>
      have hround : round anchors s = .inl (.ok (s.links ++ [⟨s.current, anchor⟩])) := by
        simp only [round, if_pos hspace, hfind]
      exact ⟨1, by omega, .stop hround⟩
    | none =>
      cases htake : take? s.current.isIssuedBy s.pool with
      | none =>
        have hround : round anchors s = .inl (.error (.noIssuer s.current.displayName)) := by
          simp only [round, if_pos hspace, hfind, htake]
        exact ⟨1, by omega, .stop hround⟩
      | some taken =>
        obtain ⟨issuer, others⟩ := taken
        have hround : round anchors s =
            .inr ⟨s.links ++ [⟨s.current, issuer⟩], issuer, others⟩ := by
          simp only [round, if_pos hspace, hfind, htake]
        obtain ⟨rounds, hrounds, hends⟩ :=
          ih (s := ⟨s.links ++ [⟨s.current, issuer⟩], issuer, others⟩)
            (by simpa [Nat.add_assoc, Nat.add_comm 1 room] using hroom)
        refine ⟨rounds + 1, by omega, .next hround ?_⟩
        -- the link is made before the walk above it, or after: the same links come out
        convert hends using 1
        simp only [resume]
        cases walk anchors room issuer others with
        | error e => rfl
        | ok above => simp [Except.map, bind, Except.bind, pure, Except.pure]

end Ascent

/-! ## 2. What is found -/

/-- What is known of a path that was found. -/
structure Found (endEntity : Bytes) (intermediates : List Bytes) (anchors : List Certificate)
    (links : List Link) : Prop extends IsPath endEntity intermediates anchors links where
  /-- There is a certificate on it. -/
  nonempty : 1 ≤ links.length
  /-- It goes to the first anchor that issued its last certificate. None issued one before that. -/
  nearest : ∃ below last, links = below ++ [last] ∧
    IsFirst last.certificate.IssuedBy anchors last.issuer ∧
    ∀ link ∈ below, ∀ anchor ∈ anchors, ¬ link.certificate.IssuedBy anchor

theorem Climbs.nearest {current : Certificate} {pool : List Certificate} {links : List Link}
    (h : Climbs anchors current pool links) : ∃ below last, links = below ++ [last] ∧
      IsFirst last.certificate.IssuedBy anchors last.issuer ∧
      ∀ link ∈ below, ∀ anchor ∈ anchors, ¬ link.certificate.IssuedBy anchor := by
  induction h with
  | arrive found =>
    have hfirst := (find?_eq_some_iff_isFirst fun _ => Certificate.isIssuedBy_iff).mp found
    exact ⟨[], _, rfl, hfirst, fun _ hlink => absurd hlink List.not_mem_nil⟩
  | @climb current issuer pool others above hbelow _ _ ih =>
    obtain ⟨below, last, rfl, hfirst, hnone⟩ := ih
    refine ⟨⟨current, issuer⟩ :: below, last, rfl, hfirst, fun link hlink anchor hanchor => ?_⟩
    rcases List.mem_cons.mp hlink with rfl | hlink
    · rw [← Certificate.isIssuedBy_iff]
      exact List.find?_eq_none.mp hbelow anchor hanchor
    · exact hnone link hlink anchor hanchor

theorem found_of_build {endEntity : Bytes} {intermediates : List Bytes} {links : List Link}
    (h : build endEntity intermediates anchors = .ok links) :
    Found endEntity intermediates anchors links := by
  have hpath := isPath_of_build h
  obtain ⟨link, above, rfl, -⟩ := hpath.first
  unfold build at h
  split at h
  · cases h
  · obtain ⟨hclimbs, -⟩ := walk_eq_ok_iff.mp h
    exact {
      toIsPath := hpath
      nonempty := Nat.le_add_left 1 above.length
      nearest := hclimbs.nearest }

/-- **Paths are reconstructed soundly.** Whatever is presented and trusted, an end entity that is
none is refused at once, and else the walk ends in one way: after at most eleven rounds, and at most
one more than there are readable certificates. What it finds then is a path of one to ten
certificates, the end entity first: each is issued by the next one, those after the first are
presented at pairwise different positions, and the last one is issued by an anchor, the first that
did, where no anchor issued one before. -/
theorem build_sound (endEntity : Bytes) (intermediates : List Bytes) (anchors : List Certificate) :
    (∀ e, Certificate.ofDer endEntity = .error e →
      build endEntity intermediates anchors = .error (.endEntity e)) ∧
    (∀ c, Certificate.ofDer endEntity = .ok c →
      ∃ rounds ≤ min 11 ((readable intermediates).length + 1), ∀ rounds' result,
        Ascent.Ends anchors rounds' ⟨[], c, readable intermediates⟩ result ↔
          rounds' = rounds ∧ result = build endEntity intermediates anchors) ∧
    ∀ links, build endEntity intermediates anchors = .ok links →
      Found endEntity intermediates anchors links := by
  refine ⟨fun e he => ?_, fun c hc => ?_, fun links => found_of_build⟩
  · rw [build, he]
  · have hbuild : build endEntity intermediates anchors =
        Ascent.resume ⟨[], c, readable intermediates⟩
          (walk anchors maxLength c (readable intermediates)) := by
      simp only [build, hc, Ascent.resume]
      cases walk anchors maxLength c (readable intermediates) <;> rfl
    obtain ⟨rounds, hrounds, hends⟩ : ∃ rounds ≤ maxLength + 1,
        Ascent.Ends anchors rounds ⟨[], c, readable intermediates⟩
          (Ascent.resume ⟨[], c, readable intermediates⟩
            (walk anchors maxLength c (readable intermediates))) := Ascent.ends_walk rfl
    rw [← hbuild] at hends
    refine ⟨rounds, Nat.le_min.mpr ⟨hrounds, hends.rounds_le⟩, fun rounds' result =>
      ⟨hends.unique, ?_⟩⟩
    rintro ⟨rfl, rfl⟩
    exact hends

end Path

open AnswerSample (root) in
open PathSample in
theorem Path.build_sound_beside_unreadable :
    build leaf.der [[], mid.der] [root] = .ok [⟨leaf, mid⟩, ⟨mid, root⟩] ∧
      Found leaf.der [[], mid.der] [root] [⟨leaf, mid⟩, ⟨mid, root⟩] := by
  have hreadable : readable [[], mid.der] = [mid] := by
    have hempty : Certificate.ofDer [] = .error .notDer := rfl
    simp only [readable, List.filterMap_cons, hempty, ofDer_mid]
    rfl
  have hbuild : build leaf.der [[], mid.der] [root] = .ok [⟨leaf, mid⟩, ⟨mid, root⟩] :=
    build_below (by decide) mid_issued hreadable
  obtain ⟨-, -, hfound⟩ := build_sound leaf.der [[], mid.der] [root]
  exact ⟨hbuild, hfound _ hbuild⟩

end PeerTrust
