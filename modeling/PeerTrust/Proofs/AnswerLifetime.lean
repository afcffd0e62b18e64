import PeerTrust.Proofs.KeptAnswers

/-!
# How long a kept answer lives

A kept answer is looked up by one clock rule, and the response that it was recorded from is judged
by others: give or take five minutes, by the certificate of its signer, and against a nonce.

* `Ocsp.SignedBy.again_iff` and `Ocsp.States.later` say what each rule makes of a response that was
  accepted before; `Ocsp.evaluate_again_iff` is what they make of it together;
* `OcspCache.WithinResponse` relates a kept answer to the responses that state it;
* `OcspCache.served_within_response`: a look-up never answers with what the response behind it would
  not state any more, unless the certificate of a delegate has expired since.
-/

namespace PeerTrust

/-! ## 1. A response that is judged again -/

namespace Ocsp

variable {r : BasicResponse} {d : ResponseData} {response : Bytes} {c issuer signer : Certificate}
  {nonce : Option Bytes} {t now : Nat} {a : Answer}

/-- Who may sign at a time might have signed before. -/
theorem SignedBy.earlier (h : SignedBy r issuer now signer) (ht : t ≤ now) :
    SignedBy r issuer t signer := by
  cases h with
  | issuer named => exact .issuer named
  | delegate foreign embedded readable read named usage issued current =>
    exact .delegate foreign embedded readable read named usage issued (Nat.le_trans ht current)

/-- A signer stays one for as long as its certificate lasts, and the issuer does for ever. -/
theorem SignedBy.again_iff (h : SignedBy r issuer t signer) :
    SignedBy r issuer now signer ↔ r.data.responder.Names issuer ∨ now ≤ signer.notAfter := by
  cases h with
  | issuer named => exact ⟨fun _ => .inl named, fun _ => .issuer named⟩
  | delegate foreign embedded readable read named usage issued current =>
    constructor
    · intro h
      cases h with
      | issuer named => exact .inl named
      | delegate _ _ _ _ _ _ _ current => exact .inr current
    · rintro (hnames | hcurrent)
      · exact absurd hnames foreign
      · exact .delegate foreign embedded readable read named usage issued hcurrent

theorem SignedBy.unique {signer' : Certificate} (h : SignedBy r issuer now signer)
    (h' : SignedBy r issuer now signer') : signer = signer' :=
  Except.ok.inj ((signer_eq_ok_iff.mpr h).symm.trans (signer_eq_ok_iff.mpr h'))

theorem Decodes.unique {r' : BasicResponse} (h : Decodes response r) (h' : Decodes response r') :
    r = r' :=
  Except.ok.inj ((decode_eq_ok_iff.mpr h).symm.trans (decode_eq_ok_iff.mpr h'))

/-- A response was signed at a time by the issuer, or by a delegate whose certificate lasts until
another time. -/
def SignerLasts (response : Bytes) (issuer : Certificate) (t now : Nat) : Prop :=
  ∃ r signer, Decodes response r ∧ SignedBy r issuer t signer ∧
    (r.data.responder.Names issuer ∨ now ≤ signer.notAfter)

/-- The signature of a response still holds exactly if its signer lasts. -/
theorem authentic_again_iff (h : Authentic response issuer t r) (ht : t ≤ now) :
    Authentic response issuer now r ↔ SignerLasts response issuer t now := by
  obtain ⟨hdecodes, signer, hsigned, hverifies⟩ := h
  constructor
  · rintro ⟨-, signer', hsigned', -⟩
    have hbefore : SignedBy r issuer t signer' := hsigned'.earlier ht
    exact ⟨r, signer', hdecodes, hbefore, hbefore.again_iff.mp hsigned'⟩
  · rintro ⟨r', signer', hdecodes', hsigned', hlasts⟩
    obtain rfl : r = r' := hdecodes.unique hdecodes'
    obtain rfl : signer = signer' := hsigned.unique hsigned'
    exact ⟨hdecodes, signer, hsigned.again_iff.mpr hlasts, hverifies⟩

/-- Signed data go on stating an answer until a newer one is due, to one who expects no nonce. -/
theorem States.later (h : States d c issuer nonce t a) (ht : t ≤ now)
    (hdue : ∀ next, a.nextUpdate = some next → now ≤ next) : States d c issuer none now a := by
  obtain ⟨-, s, hfirst, ⟨hpast, -⟩, hstatus, hnext⟩ := h
  refine ⟨fun _ _ hnonce => (nomatch hnonce), s, hfirst, ⟨?_, fun next hs => ?_⟩, hstatus, hnext⟩
  · omega
  · have hnow : now ≤ next.seconds := hdue next.seconds (by rw [hnext, hs]; rfl)
    exact Nat.le_add_right_of_le hnow

/-- **A response that was accepted is accepted again, before a newer one is due, exactly if its
signer lasts.** It states the same, and no nonce is needed. -/
theorem evaluate_again_iff (h : evaluate response c issuer nonce t = .ok a) (ht : t ≤ now)
    (hdue : ∀ next, a.nextUpdate = some next → now ≤ next) :
    evaluate response c issuer none now = .ok a ↔ SignerLasts response issuer t now := by
  obtain ⟨d, hd, ha⟩ := evaluate_eq_ok.mp h
  obtain ⟨r, hr, rfl⟩ := authenticate_eq_ok_iff.mp hd
  have hlater : States r.data c issuer none now a := (answer_eq_ok_iff.mp ha).later ht hdue
  rw [← authentic_again_iff hr ht, evaluate_eq_ok]
  constructor
  · intro hagain
    obtain ⟨d, hd, -⟩ := hagain
    obtain ⟨r', hr', -⟩ := authenticate_eq_ok_iff.mp hd
    exact hr.decodes.unique hr'.decodes ▸ hr'
  · intro hr
    exact ⟨r.data, authenticate_eq_ok_iff.mpr ⟨r, hr, rfl⟩, answer_eq_ok_iff.mpr hlater⟩

end Ocsp

/-! ## 2. Answers from the cache -/

/-- The time at which a use takes place. -/
def OcspUse.now : OcspUse → Nat
  | check _ _ now => now
  | staple _ _ _ now => now
  | cleanup now => now

namespace OcspCache

variable {o : Outside} {cfg : RevocationConfig} {uses : List OcspUse} {s : OcspShared}
  {use : OcspUse} {calls : Calls} {a : RecordedAnswer} {c issuer : Certificate} {now : Nat}
  {status : Ocsp.Status}

/-- An answer is recorded with the time of the use that it was accepted for. -/
theorem Origin.now_eq (h : Origin o use calls a) : use.now = a.now := by
  rcases h.accepted with ⟨rfl, -⟩ | ⟨response, rfl, -⟩
  · rfl
  · rfl

/-- A recorded answer that is used at a time is within what its response states. -/
structure WithinResponse (cfg : RevocationConfig) (a : RecordedAnswer) (now : Nat) : Prop where
  /-- A response that the answer was accepted from still states it, exactly if its signer lasts. -/
  again : ∀ response nonce, Ocsp.evaluate response a.c a.issuer nonce a.now = .ok a.answer →
    (Ocsp.evaluate response a.c a.issuer none now = .ok a.answer ↔
      Ocsp.SignerLasts response a.issuer a.now now)
  /-- No newer response is due, if one was promised. -/
  due : ∀ next, a.answer.nextUpdate = some next → now ≤ next
  /-- If none was, the lifetime of answers has not passed since the recording. -/
  lifetime : a.answer.nextUpdate = none → now ≤ a.now + cfg.ocspLifetime

theorem WithinResponse.of_fresh (h : a.kept.Fresh cfg.ocspLifetime now) (ht : a.now ≤ now) :
    WithinResponse cfg a now where
  again _ _ heval := Ocsp.evaluate_again_iff heval ht h.due
  due := h.due
  lifetime hnone := by
    have hpassed : now - a.now ≤ cfg.ocspLifetime := h.lifetime hnone
    omega

/-- What a look-up answers with was recorded last under its key, and is fresh. -/
theorem Logged.exists_recorded (h : Logged o cfg uses s)
    (hserved : (lookUp cfg c issuer now s).1 = .answered (.ok status)) :
    ∃ a since, LastRecorded s.log a since ∧ a.key = .of c issuer ∧ a.answer.status = status ∧
      (∃ use ∈ uses, Origin o use s.calls a) ∧ a.kept.Fresh cfg.ocspLifetime now := by
  obtain ⟨kept, hlive, hvalue⟩ := lookUp_eq_answered_iff.mp hserved
  obtain ⟨a, ⟨since, hlast, -⟩, hkey, rfl, hfresh⟩ := h.live?_iff.mp hlive
  obtain ⟨before, hlog⟩ := hlast.logged
  exact ⟨a, since, hlast, hkey, hvalue, h.origins a (by rw [hlog]; simp), hfresh⟩

/-- **An answer from the cache does not outlive the response behind it.** However uses overlap whose
times are not later than that of a look-up which answers: what it answers with was recorded last
under its key, from a response that a responder gave or a peer presented. That response, judged at
the time of the look-up, still states the same, if its signer lasts. A check that finds such an
answer asks nobody. -/
theorem served_within_response (o : Outside) (cfg : RevocationConfig)
    (moves : List (Machine.Move OcspUse)) {c issuer : Certificate} {now : Nat}
    {status : Ocsp.Status} (clock : ∀ use ∈ (run o cfg moves).uses, use.now ≤ now)
    (served : (lookUp cfg c issuer now (run o cfg moves).shared).1 = .answered (.ok status)) :
    (∃ a since, LastRecorded (run o cfg moves).shared.log a since ∧ a.key = .of c issuer ∧
      a.answer.status = status ∧ a.now ≤ now ∧
      (∃ use ∈ (run o cfg moves).uses, Origin o use (run o cfg moves).shared.calls a) ∧
      WithinResponse cfg a now) ∧
    check o cfg c issuer now (run o cfg moves).shared.cache (run o cfg moves).shared.calls =
      (.ok status, (run o cfg moves).shared.cache.countHit, (run o cfg moves).shared.calls) := by
  have hlogged : Logged o cfg (run o cfg moves).uses (run o cfg moves).shared :=
    (holds_run o cfg moves).shared
  constructor
  · obtain ⟨a, since, hlast, hkey, hstatus, ⟨use, huse, horigin⟩, hfresh⟩ :=
      hlogged.exists_recorded served
    have ht : a.now ≤ now := horigin.now_eq ▸ clock use huse
    exact ⟨a, since, hlast, hkey, hstatus, ht, ⟨use, huse, horigin⟩, .of_fresh hfresh ht⟩
  · obtain ⟨kept, hlive, rfl⟩ := lookUp_eq_answered_iff.mp served
    exact check_of_live? _ hlive

/-- A staple that is recorded answers look-ups until it expires. -/
theorem lookUp_later_after_staple {response : Bytes} {a : Ocsp.Answer} {t : Nat}
    (heval : Ocsp.evaluate response c issuer none t = .ok a) (hdefinite : a.status ≠ .unknown)
    (hfresh : Kept.isExpired cfg.ocspLifetime now ⟨a.status, t, a.nextUpdate⟩ = false) :
    (lookUp cfg c issuer now (run o cfg [.launch (.staple response c issuer t), .resume 0,
      .resume 0]).shared).1 = .answered (.ok a.status) := by
  rw [run_staple heval hdefinite]
  refine lookUp_eq_answered_iff.mpr ⟨⟨a.status, t, a.nextUpdate⟩, ?_, rfl⟩
  simp [takeStapled, heval, takeAnswer, record, hdefinite, Cache.store, Cache.insert, Cache.empty,
    Cache.size, sweepLimit, Cache.live?, Cache.find?, hfresh]

end OcspCache

open AnswerSample in
theorem OcspCache.within_response_of_staple :
    let p := run silent .standard (stapled good)
    (∀ use ∈ p.uses, use.now ≤ 1706745600) ∧
      (lookUp .standard alice root 1706745600 p.shared).1 = .answered (.ok .good) ∧
      Ocsp.evaluate (octets good) alice root none 1706745600 = .ok ⟨.good, some 1706745600⟩ := by
  have huses : (run silent .standard (stapled good)).uses =
      [.staple (octets good) alice root now] := by
    simp only [run, stapled, Machine.run, List.foldl_cons, List.foldl_nil,
      Machine.uses_advance_resume, Machine.uses_advance_launch]
    rfl
  have hclock : ∀ use ∈ (run silent .standard (stapled good)).uses, use.now ≤ 1706745600 := by
    intro use hmem
    obtain rfl : use = .staple (octets good) alice root now := by simpa [huses] using hmem
    decide
  have hserved : (lookUp .standard alice root 1706745600
      (run silent .standard (stapled good)).shared).1 = .answered (.ok .good) :=
    lookUp_later_after_staple evaluate_good (by decide) rfl
  refine ⟨hclock, hserved, ?_⟩
  obtain ⟨⟨a, since, hlast, -, -, -, -, hwithin⟩, -⟩ :=
    served_within_response silent .standard (stapled good) hclock hserved
  -- the staple is all that was recorded
  obtain rfl : a = ⟨alice, root, now, ⟨.good, some 1706745600⟩⟩ := by
    obtain ⟨before, hlog⟩ := hlast.logged
    have hmem : OcspEvent.recorded a ∈ (run silent .standard (stapled good)).shared.log := by
      rw [hlog]
      simp
    simpa [stapled, run_staple evaluate_good (by decide)] using hmem
  have hlasts : Ocsp.SignerLasts (octets good) root now 1706745600 :=
    ⟨good, root, Ocsp.decode_eq_ok_iff.mp decode_good, .issuer (.inl rfl), .inl (.inl rfl)⟩
  exact (hwithin.again _ none evaluate_good).mpr hlasts

end PeerTrust
