import PeerTrust.Proofs.OcspAcceptance
import PeerTrust.Proofs.OcspThreads

/-!
# What kept answers say

Checks, staples and clean-ups of one cache overlap in any way.

* `OcspCache.keeps_last_recorded`: what is kept is what was last accepted for its key, and a look-up
  answers with it only while it is fresh;
* `OcspCache.takeStapledForAll_eq`: a staple that is taken for several certificates is taken for each
  of them in turn;
* `OcspCache.revoked_until_due`: a certificate stays revoked until a newer answer is due, unless
  another answer takes the place of the one that says so; `OcspCache.revocation_undone`: an older
  one may;
* `OcspCache.served_for_serial_and_key`: an answer is served to certificates of one serial number
  under one key of an issuer; `OcspCache.served_under_other_name`: even if the issuer has another
  name.
-/

namespace PeerTrust

open X509.Strict (Moment encodeSequence)

namespace OcspCache

variable {o : Outside} {cfg : RevocationConfig} {uses : List OcspUse} {use : OcspUse}
  {phase : OcspPhase} {s : OcspShared} {key : OcspKey} {kept : Kept Ocsp.Status}
  {c issuer : Certificate} {now : Nat} {status : Ocsp.Status}

/-! ## 1. What is found -/

theorem Logged.mem_iff (h : Logged o cfg uses s) : (key, kept) ∈ s.cache.entries ↔
    ∃ a, Stands cfg.ocspLifetime s.log a ∧ a.key = key ∧ a.kept = kept := by
  rw [h.entries]
  exact mem_replay_iff

/-- **A look-up finds the answer that stands under a key, if it is fresh.** -/
theorem Logged.live?_iff (h : Logged o cfg uses s) :
    s.cache.live? cfg.ocspLifetime now key = some kept ↔
      ∃ a, Stands cfg.ocspLifetime s.log a ∧ a.key = key ∧ a.kept = kept ∧
        kept.Fresh cfg.ocspLifetime now := by
  have hfind : s.cache.find? key = some kept ↔
      ∃ a, Stands cfg.ocspLifetime s.log a ∧ a.key = key ∧ a.kept = kept := by
    rw [Cache.find?, h.entries]
    exact find?_replay_iff
  simp only [Cache.live?, Option.filter_eq_some_iff, hfind, Bool.not_eq_true',
    Kept.isExpired_eq_false_iff]
  constructor
  · rintro ⟨⟨a, hstands, hkey, hkept⟩, hfresh⟩
    exact ⟨a, hstands, hkey, hkept, hfresh⟩
  · rintro ⟨a, hstands, hkey, hkept, hfresh⟩
    exact ⟨⟨a, hstands, hkey, hkept⟩, hfresh⟩

/-- A look-up answers only with what it finds. -/
theorem lookUp_eq_answered_iff : (lookUp cfg c issuer now s).1 = .answered (.ok status) ↔
    ∃ kept, s.cache.live? cfg.ocspLifetime now (.of c issuer) = some kept ∧
      kept.value = status := by
  unfold lookUp
  cases hlive : s.cache.live? cfg.ocspLifetime now (.of c issuer) with
  | some kept => simp
  | none =>
    cases responders cfg c with
    | error e => simp
    | ok urls => simp

theorem check_of_live? {cache : OcspCache} (calls : Calls)
    (h : cache.live? cfg.ocspLifetime now (.of c issuer) = some kept) :
    check o cfg c issuer now cache calls = (.ok kept.value, cache.countHit, calls) := by
  simp only [check, h]

/-! ## 2. What is kept -/

/-- A check that fails, or learns that the status is unknown, leaves the answers as they are. -/
theorem check_entries_of_undecided {cache : OcspCache} {calls : Calls}
    (h : ∀ status, (check o cfg c issuer now cache calls).1 = .ok status → status = .unknown) :
    (check o cfg c issuer now cache calls).2.1.entries = cache.entries := by
  revert h
  unfold check
  split
  · exact fun _ => rfl
  · simp only
    split
    · exact fun _ => rfl
    · split
      · exact fun _ => rfl
      · rename_i a calls' hquery
        intro h
        have hunknown : a.status = .unknown := h a.status rfl
        simp only [record, hunknown, if_true]
        rfl

/-- So does a staple. -/
theorem takeStapled_entries_of_undecided {response : Bytes} {cache : OcspCache}
    (h : ∀ status, (takeStapled cfg response c issuer now cache).1 = .ok status →
      status = .unknown) : (takeStapled cfg response c issuer now cache).2 = cache := by
  revert h
  unfold takeStapled
  cases Ocsp.evaluate response c issuer none now with
  | error e => exact fun _ => rfl
  | ok a =>
    intro h
    have hunknown : a.status = .unknown := h a.status rfl
    simp only [takeAnswer, record, hunknown, if_true]

/-- **A staple that is taken for several certificates is taken for each of them in turn**, though
its signature is checked once. -/
theorem takeStapledForAll_eq (response : Bytes) (cs : List Certificate) (cache : OcspCache) :
    takeStapledForAll cfg response cs issuer now cache =
      Id.run (StateT.run (cs.mapM fun c => takeStapled cfg response c issuer now) cache) := by
  -- the results so far stand before those to come
  have hfold (results : List (Except Ocsp.Error Ocsp.Status)) :
      cs.foldl (fun taken c =>
        (taken.1 ++ [(takeStapled cfg response c issuer now taken.2).1],
          (takeStapled cfg response c issuer now taken.2).2)) (results, cache) =
      Prod.map (results ++ ·) id
        (Id.run (StateT.run (cs.mapM fun c => takeStapled cfg response c issuer now) cache)) := by
    induction cs generalizing results cache with
    | nil => simp
    | cons c cs ih =>
      rw [List.foldl_cons, List.mapM_cons]
      simp only [ih, StateT.run_bind, StateT.run_pure]
      simp only [Prod.map, List.append_assoc]
      rfl
  exact (hfold []).trans (by simp [Prod.map])

variable (o cfg) in
/-- The answers kept are those that were last accepted, in a pool of uses that overlap. -/
structure KeepsLast (p : Machine.Pool OcspShared OcspUse OcspPhase) : Prop where
  /-- What is kept says `good` or `revoked`, and is what was last recorded under its key. It was
  accepted for a use. -/
  kept : ∀ key kept, (key, kept) ∈ p.shared.cache.entries → kept.value ≠ .unknown ∧
    ∃ a since, LastRecorded p.shared.log a since ∧ a.key = key ∧ a.kept = kept ∧
      ∃ use ∈ p.uses, Origin o use p.shared.calls a
  /-- A step that changes what is kept is a clean-up, or it records an answer that was accepted, is
  definite and becomes the result. -/
  changes : ∀ use phase, (use, phase) ∈ p.threads →
    (step o cfg use phase p.shared).2.cache.entries ≠ p.shared.cache.entries →
      (∃ now, use = .cleanup now) ∨ ∃ a, phase = .recording a ∧ Origin o use p.shared.calls a ∧
        step o cfg use phase p.shared = (.answered (.ok a.answer.status), recordNow cfg a p.shared)
  /-- A use that has a result is over. So one that fails, or learns that a status is unknown, has
  changed nothing. -/
  finished : ∀ use result, (use, .answered result) ∈ p.threads →
    step o cfg use (.answered result) p.shared = (.answered result, p.shared)
  /-- A look-up answers with what is kept, and only while that is fresh. -/
  found : ∀ c issuer now status,
    (step o cfg (.check c issuer now) .starting p.shared).1 = .answered (.ok status) ↔
      ∃ kept, (OcspKey.of c issuer, kept) ∈ p.shared.cache.entries ∧ kept.value = status ∧
        kept.Fresh cfg.ocspLifetime now

theorem Logged.found_iff (h : Logged o cfg uses s) :
    (lookUp cfg c issuer now s).1 = .answered (.ok status) ↔
      ∃ kept, (OcspKey.of c issuer, kept) ∈ s.cache.entries ∧ kept.value = status ∧
        kept.Fresh cfg.ocspLifetime now := by
  constructor
  · intro hanswered
    obtain ⟨kept, hlive, hvalue⟩ := lookUp_eq_answered_iff.mp hanswered
    obtain ⟨a, hstands, hkey, hkept, hfresh⟩ := h.live?_iff.mp hlive
    exact ⟨kept, h.mem_iff.mpr ⟨a, hstands, hkey, hkept⟩, hvalue, hfresh⟩
  · rintro ⟨kept, hmem, rfl, hfresh⟩
    obtain ⟨a, hstands, hkey, hkept⟩ := h.mem_iff.mp hmem
    exact lookUp_eq_answered_iff.mpr
      ⟨kept, h.live?_iff.mpr ⟨a, hstands, hkey, hkept, hfresh⟩, rfl⟩

/-- **What is kept is what was last accepted.** However uses overlap, whatever the times at which
they look, and whatever responders reply; uses that follow one another are a case of that. One that
fails, or learns that a status is unknown, changes nothing. -/
theorem keeps_last_recorded (o : Outside) (cfg : RevocationConfig) :
    (∀ moves, KeepsLast o cfg (run o cfg moves)) ∧
    (∀ uses : List OcspUse, ∃ moves,
      ((run o cfg moves).shared.cache, (run o cfg moves).shared.calls) =
        uses.foldl (applyUse o cfg) (.empty, [])) ∧
    (∀ c issuer now cache calls,
      (∀ status, (check o cfg c issuer now cache calls).1 = .ok status → status = .unknown) →
        (check o cfg c issuer now cache calls).2.1.entries = cache.entries) ∧
    ∀ response c issuer now cache,
      (∀ status, (takeStapled cfg response c issuer now cache).1 = .ok status →
        status = .unknown) → (takeStapled cfg response c issuer now cache).2 = cache := by
  refine ⟨fun moves => ?_, exists_schedule o cfg, fun _ _ _ _ _ => check_entries_of_undecided,
    fun _ _ _ _ _ => takeStapled_entries_of_undecided⟩
  obtain ⟨hlogged, haccepted⟩ := holds_run o cfg moves
  refine ⟨fun key kept hmem => ?_, fun use phase hmem hchange => ?_, fun use result _ => ?_,
    fun _ _ _ _ => hlogged.found_iff⟩
  · obtain ⟨a, ⟨since, hlast, -⟩, hkey, hkept⟩ := hlogged.mem_iff.mp hmem
    obtain ⟨before, hlog⟩ := hlast.logged
    obtain ⟨use, huse, horigin⟩ := hlogged.origins a (by rw [hlog]; simp)
    subst hkept
    exact ⟨horigin.definite, a, since, hlast, hkey, rfl, use, huse, horigin⟩
  · have hdoes : Does o cfg use phase (run o cfg moves).shared _ :=
      step_does (haccepted use phase hmem)
    generalize step o cfg use phase (run o cfg moves).shared = r at hdoes hchange
    cases hdoes with
    | quiet entries _ _ _ => exact absurd entries hchange
    | records phase_eq => exact .inr ⟨_, phase_eq, haccepted use phase hmem _ phase_eq, rfl⟩
    | sweeps use_eq => exact .inl ⟨_, use_eq⟩
  · cases use with
    | check _ _ _ => rfl
    | staple _ _ _ _ => rfl
    | cleanup _ => rfl

/-! ## 3. After a staple -/

-- These are about any staple: on a given one, a proof by computation would verify its signature.

/-- A staple that is presented, accepted and recorded, and a clean-up. -/
theorem log_staple_cleanup {response : Bytes} {a : Ocsp.Answer} {t : Nat}
    (heval : Ocsp.evaluate response c issuer none now = .ok a) (hdefinite : a.status ≠ .unknown) :
    (run o cfg [.launch (.staple response c issuer now), .resume 0, .resume 0,
      .launch (.cleanup t), .resume 1]).shared.log = [.recorded ⟨c, issuer, now, a⟩, .swept t] := by
  simp [run, Machine.run, Machine.advance, machine, step, present, heval, accept, hdefinite,
    recordNow, cleanupNow, recordEvents, Cache.insert, Cache.empty, Cache.size, sweepLimit]

/-- A staple that is presented, accepted and recorded. -/
theorem run_staple {response : Bytes} {a : Ocsp.Answer}
    (heval : Ocsp.evaluate response c issuer none now = .ok a) (hdefinite : a.status ≠ .unknown) :
    (run o cfg [.launch (.staple response c issuer now), .resume 0, .resume 0]).shared =
      ⟨(takeStapled cfg response c issuer now .empty).2, [], [.recorded ⟨c, issuer, now, a⟩]⟩ := by
  simp [run, Machine.run, Machine.advance, machine, step, present, heval, accept, hdefinite,
    recordNow, recordEvents, takeStapled, takeAnswer, Cache.insert, Cache.empty, Cache.size,
    sweepLimit]

/-- What a staple says is found under its key. -/
theorem live?_takeStapled {response : Bytes} {a : Ocsp.Answer} {cache : OcspCache}
    (heval : Ocsp.evaluate response c issuer none now = .ok a) (hdefinite : a.status ≠ .unknown)
    (hfresh : Kept.isExpired cfg.ocspLifetime now ⟨a.status, now, a.nextUpdate⟩ = false) :
    (takeStapled cfg response c issuer now cache).2.live? cfg.ocspLifetime now (.of c issuer) =
      some ⟨a.status, now, a.nextUpdate⟩ := by
  simp only [takeStapled, heval, takeAnswer, record, hdefinite, if_false]
  exact Cache.live?_store_self hfresh

theorem lookUp_after_staple {response : Bytes} {a : Ocsp.Answer}
    (heval : Ocsp.evaluate response c issuer none now = .ok a) (hdefinite : a.status ≠ .unknown)
    (hfresh : Kept.isExpired cfg.ocspLifetime now ⟨a.status, now, a.nextUpdate⟩ = false) :
    (lookUp cfg c issuer now (run o cfg [.launch (.staple response c issuer now), .resume 0,
      .resume 0]).shared).1 = .answered (.ok a.status) := by
  rw [run_staple heval hdefinite]
  exact lookUp_eq_answered_iff.mpr ⟨_, live?_takeStapled heval hdefinite hfresh, rfl⟩

/-- A check that follows a staple under the same key says what the staple said. -/
theorem check_takeStapled {response : Bytes} {a : Ocsp.Answer} {cache : OcspCache} {calls : Calls}
    {c' issuer' : Certificate} (heval : Ocsp.evaluate response c issuer none now = .ok a)
    (hdefinite : a.status ≠ .unknown) (hkey : OcspKey.of c' issuer' = .of c issuer)
    (hfresh : Kept.isExpired cfg.ocspLifetime now ⟨a.status, now, a.nextUpdate⟩ = false) :
    (check o cfg c' issuer' now (takeStapled cfg response c issuer now cache).2 calls).1 =
      .ok a.status := by
  have hlive : (takeStapled cfg response c issuer now cache).2.live? cfg.ocspLifetime now
      (.of c' issuer') = some ⟨a.status, now, a.nextUpdate⟩ := by
    rw [hkey]
    exact live?_takeStapled heval hdefinite hfresh
  rw [check_of_live? calls hlive]

/-- A clean-up drops what a staple said once a newer answer is overdue. -/
theorem cleanup_takeStapled {response : Bytes} {a : Ocsp.Answer} {t : Nat}
    (heval : Ocsp.evaluate response c issuer none now = .ok a) (hdefinite : a.status ≠ .unknown)
    (hexpired : Kept.isExpired cfg.ocspLifetime t ⟨a.status, now, a.nextUpdate⟩ = true) :
    cleanup cfg t (takeStapled cfg response c issuer now .empty).2 = .empty := by
  simp [takeStapled, heval, takeAnswer, record, hdefinite, Cache.store, Cache.insert, Cache.empty,
    Cache.size, sweepLimit, cleanup, Cache.sweep, hexpired]

end OcspCache

namespace AnswerSample

/-- The name with one attribute, a common name. -/
def named (text : String) : Bytes :=
  encodeSequence [Der.encode Der.tagSet (encodeSequence
    [Der.encode Der.tagOid Oid.commonName.octets, Der.encode 0x0c (Bytes.ofText text)])]

/-- An issuer of a name, with a key on P-256. -/
def issuerNamed (text : String) : Certificate :=
  { (default : Certificate) with
    subject := named text
    publicKey := ⟨⟨Oid.ecPublicKey, some ⟨.universal, false, 6, Oid.curveP256.octets, []⟩⟩,
      4 :: (Bytes.ofNat 32 0x3e9670fa9fa07485950cf99c7ded26b3dc11989afc8e364eadd840e0ecd69920 ++
        Bytes.ofNat 32 0x2be4af2e2ec319cd7c78a4ba270224f37037d8e3e0a6e184d482f55918780e6c)⟩ }

/-- The fifth certificate of an issuer. It names no responder. -/
def fifthOf (issuer : Certificate) : Certificate :=
  { (default : Certificate) with issuer := issuer.subject, serial := [5] }

def root : Certificate := issuerNamed "root"

def alice : Certificate := fifthOf root

/-- How responses name that of the root. -/
def certId : Ocsp.CertId :=
  ⟨⟨Oid.sha1, none⟩, Bytes.ofNat 20 0x692a0ce064525d04549d7e805ccf98ebad39bd2f,
    Bytes.ofNat 20 0x8fb94fd6fbe96f1f589edeb57109455cd91996a4, [5]⟩

/-- What a response of the root states of it, with a signature of two numbers. -/
def response (status : Ocsp.CertStatus) (thisUpdate next : Moment) (r s : Nat) :
    Ocsp.BasicResponse where
  data := ⟨.byName root.subject, thisUpdate, [⟨certId, status, thisUpdate, some next, none⟩], none⟩
  signatureAlgorithm := ⟨Oid.ecdsaWithSha256, none⟩
  signature := encodeSequence [Der.encodeNatural r, Der.encodeNatural s]
  certificates := []

/-- The written form. -/
def octets (r : Ocsp.BasicResponse) : Bytes :=
  encodeSequence [Der.encode Der.tagEnumerated [0],
    Der.encode (Der.tagExplicit 0) (encodeSequence [Der.encode Der.tagOid Oid.ocspBasic.octets,
      Der.encode Der.tagOctets (encodeSequence [r.data.encode, r.signatureAlgorithm.encode,
        Der.encode Der.tagBits (0 :: r.signature)])])]

/-- On the first of January it is good, and the next response is due on the first of February. -/
def good : Ocsp.BasicResponse :=
  response .good ⟨Bytes.ofText "20240101000000Z", 1704067200⟩
    ⟨Bytes.ofText "20240201000000Z", 1706745600⟩
    0x52465b31d1f2400ef2ffbd113ce69901f4e30373b1b5d46513375eb664a50126
    0x326c3e269732c1dfd0da63965b291ae1ffb401060f87c965bf299a0c015336c9

/-- On the tenth it is revoked, and the next response is due on the twentieth. -/
def revoked : Ocsp.BasicResponse :=
  let tenth : Moment := ⟨Bytes.ofText "20240110000000Z", 1704844800⟩
  response (.revoked tenth none) tenth ⟨Bytes.ofText "20240120000000Z", 1705708800⟩
    0x21de7ef83e7aaf9369ebadc91d294c76788365e01ed86a191c03bc0337252f27
    0x4c4008243a266fc670253689ef7fa455d0efa00b998c58ca9ddaa778b0bcc247

/-- The fifteenth. -/
def now : Nat := 1705276800

/-- A network that does not answer. -/
def silent : Outside := ⟨fun _ _ => .error default, fun _ => [], fun _ => 0⟩

theorem identifies : certId.Identifies alice root := Ocsp.CertId.isOf_iff.mp (by decide +kernel)

/-- A response is accepted if it is read and its signature holds. -/
theorem evaluate_octets {r : Ocsp.BasicResponse} {a : Ocsp.Answer}
    (hdecode : Ocsp.decode (octets r) = .ok r)
    (hverify : Ocsp.verifySignature r root now = .ok ())
    (hstates : Ocsp.States r.data alice root none now a) :
    Ocsp.evaluate (octets r) alice root none now = .ok a :=
  Ocsp.evaluate_eq_ok.mpr ⟨r.data, bind_eq_ok_iff.mpr ⟨r, hdecode, bind_eq_ok_iff.mpr
    ⟨(), hverify, rfl⟩⟩, Ocsp.answer_eq_ok_iff.mpr hstates⟩

/-- It states of the certificate what it states of the one that it names. -/
theorem states_response {status : Ocsp.CertStatus} {thisUpdate next : Moment} {r s : Nat}
    (hpast : thisUpdate.seconds ≤ now) (hdue : now ≤ next.seconds) :
    Ocsp.States (response status thisUpdate next r s).data alice root none now
      ⟨status.toStatus, some next.seconds⟩ := by
  have htimely : Ocsp.Timely ⟨certId, status, thisUpdate, some next, none⟩ now := by
    refine ⟨Nat.le_add_right_of_le hpast, fun m hm => ?_⟩
    obtain rfl : next = m := Option.some.inj hm
    exact Nat.le_add_right_of_le hdue
  exact ⟨fun _ _ hnonce => (nomatch hnonce), _, ⟨[], [], rfl, identifies, by simp⟩, htimely,
    Ocsp.CertStatus.means_iff.mpr rfl, rfl⟩

theorem decode_good : Ocsp.decode (octets good) = .ok good := by decide +kernel

theorem decode_revoked : Ocsp.decode (octets revoked) = .ok revoked := by decide +kernel

theorem evaluate_good :
    Ocsp.evaluate (octets good) alice root none now = .ok ⟨.good, some 1706745600⟩ :=
  evaluate_octets decode_good (by decide +kernel) (states_response (by decide) (by decide))

theorem evaluate_revoked :
    Ocsp.evaluate (octets revoked) alice root none now = .ok ⟨.revoked, some 1705708800⟩ :=
  evaluate_octets decode_revoked (by decide +kernel) (states_response (by decide) (by decide))

/-- A response is presented as a staple, and recorded. -/
def stapled (r : Ocsp.BasicResponse) : List (Machine.Move OcspUse) :=
  [.launch (.staple (octets r) alice root now), .resume 0, .resume 0]

/-- It is presented and recorded, and then there is a clean-up. -/
def stapledAndSwept (r : Ocsp.BasicResponse) : List (Machine.Move OcspUse) :=
  [.launch (.staple (octets r) alice root now), .resume 0, .resume 0, .launch (.cleanup now),
    .resume 1]

end AnswerSample

/-! ## 4. Revocations -/

/-- An answer says that a certificate is revoked, and promises no newer answer before a time. -/
structure RecordedAnswer.RevokedUntil (due : Nat) (a : RecordedAnswer) : Prop where
  revoked : a.answer.status = .revoked
  due : ∃ next, a.answer.nextUpdate = some next ∧ due ≤ next

theorem RecordedAnswer.RevokedUntil.fresh {a : RecordedAnswer} {due lifetime t : Nat}
    (h : a.RevokedUntil due) (ht : t ≤ due) : a.kept.Fresh lifetime t := by
  obtain ⟨next, hnext, hdue⟩ := h.due
  refine ⟨fun n hn => ?_, fun hn => ?_⟩
  · obtain rfl : next = n := Option.some.inj (hnext.symm.trans hn)
    exact Nat.le_trans ht hdue
  · exact nomatch hnext.symm.trans hn

namespace OcspCache

/-- **A certificate stays revoked until a newer answer is due.** An answer that says so was
recorded; no sweep has come since then for which the newer answer was overdue, and no answer took
its place but those that say as much. -/
theorem revoked_until_due (o : Outside) (cfg : RevocationConfig)
    (moves : List (Machine.Move OcspUse)) {before since : List OcspEvent} {a : RecordedAnswer}
    {c issuer : Certificate} {due now : Nat}
    (recorded : (run o cfg moves).shared.log = before ++ .recorded a :: since)
    (revoked : a.RevokedUntil due) (key : a.key = .of c issuer)
    (replaced : ∀ a', .recorded a' ∈ since → a'.key = a.key → a'.RevokedUntil due)
    (swept : ∀ t, .swept t ∈ since → t ≤ due) (now_le : now ≤ due) :
    (lookUp cfg c issuer now (run o cfg moves).shared).1 = .answered (.ok .revoked) ∧
      (check o cfg c issuer now (run o cfg moves).shared.cache (run o cfg moves).shared.calls).1 =
        .ok .revoked := by
  have hlogged : Logged o cfg (run o cfg moves).uses (run o cfg moves).shared :=
    (holds_run o cfg moves).shared
  -- what was recorded last under the key says as much, and no sweep since then dropped it
  obtain ⟨last, rest, hlast, hkey, hmem, hrest⟩ := exists_lastRecorded before a since
  have hrevoked : last.RevokedUntil due := by
    rcases hmem with rfl | hmem
    · exact revoked
    · exact replaced last hmem hkey
  have hstands : Stands cfg.ocspLifetime (run o cfg moves).shared.log last := by
    refine ⟨rest, recorded ▸ hlast, fun t ht => ?_⟩
    exact Kept.isExpired_eq_false_iff.mpr (hrevoked.fresh (swept t (hrest ht)))
  have hlive : (run o cfg moves).shared.cache.live? cfg.ocspLifetime now (.of c issuer) =
      some last.kept :=
    hlogged.live?_iff.mpr ⟨last, hstands, hkey.trans key, rfl, hrevoked.fresh now_le⟩
  have hvalue : last.kept.value = .revoked := hrevoked.revoked
  refine ⟨lookUp_eq_answered_iff.mpr ⟨_, hlive, hvalue⟩, ?_⟩
  rw [check_of_live? _ hlive, hvalue]

end OcspCache

open AnswerSample in
theorem OcspCache.revoked_until_due_of_staple :
    let p := run silent .standard (stapledAndSwept revoked)
    p.shared.log = [.recorded ⟨alice, root, now, ⟨.revoked, some 1705708800⟩⟩, .swept now] ∧
      (lookUp .standard alice root 1705708800 p.shared).1 = .answered (.ok .revoked) ∧
      (check silent .standard alice root 1705708800 p.shared.cache p.shared.calls).1 =
        .ok .revoked := by
  have hlog : (run silent .standard (stapledAndSwept revoked)).shared.log =
      [] ++ .recorded ⟨alice, root, now, ⟨.revoked, some 1705708800⟩⟩ :: [.swept now] :=
    log_staple_cleanup evaluate_revoked (by decide)
  have hrevoked : RecordedAnswer.RevokedUntil 1705708800
      ⟨alice, root, now, ⟨.revoked, some 1705708800⟩⟩ := ⟨rfl, 1705708800, rfl, Nat.le_refl _⟩
  refine ⟨hlog, revoked_until_due silent .standard (stapledAndSwept revoked) hlog hrevoked rfl
    (by simp) (fun t hmem => ?_) (Nat.le_refl _)⟩
  obtain rfl : t = now := by simpa using hmem
  decide

open AnswerSample in
theorem OcspCache.revocation_undone :
    Ocsp.evaluate (octets revoked) alice root none now = .ok ⟨.revoked, some 1705708800⟩ ∧
      Ocsp.evaluate (octets good) alice root none now = .ok ⟨.good, some 1706745600⟩ ∧
      revoked.data.responses.map (·.thisUpdate.seconds) = [1704844800] ∧
      good.data.responses.map (·.thisUpdate.seconds) = [1704067200] ∧ now ≤ 1705708800 ∧
      (check silent .standard alice root now (takeStapled .standard (octets good) alice root now
        (takeStapled .standard (octets revoked) alice root now .empty).2).2 []).1 = .ok .good ∧
      (check silent .standard alice root now (cleanup .standard 1705708801
        (takeStapled .standard (octets revoked) alice root now .empty).2) []).1 =
          .error (.ocsp (.noResponder "serial:05")) := by
  refine ⟨evaluate_revoked, evaluate_good, rfl, rfl, by decide, ?_, ?_⟩
  · exact check_takeStapled evaluate_good (by decide) rfl rfl
  · rw [cleanup_takeStapled evaluate_revoked (by decide) rfl]
    rfl

/-! ## 5. Certificates of other issuers -/

/-- Answers are kept under one key for one serial number under one key of an issuer. -/
theorem OcspKey.of_congr {c c' issuer issuer' : Certificate} (hserial : c.serial = c'.serial)
    (hkey : issuer.publicKey.key = issuer'.publicKey.key) : of c issuer = of c' issuer' := by
  simp only [of, hserial, hkey]

/-- Names of certificates tell apart their serial numbers, and the names and keys of their
issuers. -/
theorem Ocsp.CertId.identifies_congr {id : CertId} {c c' issuer issuer' : Certificate}
    (hserial : c.serial = c'.serial) (hname : issuer.subject = issuer'.subject)
    (hkey : issuer.publicKey.key = issuer'.publicKey.key) :
    id.Identifies c issuer ↔ id.Identifies c' issuer' := by
  simp only [Identifies, hserial, hname, hkey]

namespace OcspCache

/-- **An answer is served to certificates of one serial number under one key.** It was last recorded
for such a certificate, under an issuer with a key of the same digest. Where the names and the keys
of both issuers are the same, whatever names the one certificate names the other. -/
theorem served_for_serial_and_key (o : Outside) (cfg : RevocationConfig)
    (moves : List (Machine.Move OcspUse)) {c issuer : Certificate} {now : Nat}
    {status : Ocsp.Status}
    (served : (lookUp cfg c issuer now (run o cfg moves).shared).1 = .answered (.ok status)) :
    ∃ a since, LastRecorded (run o cfg moves).shared.log a since ∧ a.answer.status = status ∧
      (∃ use ∈ (run o cfg moves).uses, Origin o use (run o cfg moves).shared.calls a) ∧
      a.c.serial = c.serial ∧
      Sha256.digest a.issuer.publicKey.key = Sha256.digest issuer.publicKey.key ∧
      (a.issuer.subject = issuer.subject → a.issuer.publicKey.key = issuer.publicKey.key →
        ∀ id : Ocsp.CertId, id.Identifies a.c a.issuer ↔ id.Identifies c issuer) := by
  have hlogged : Logged o cfg (run o cfg moves).uses (run o cfg moves).shared :=
    (holds_run o cfg moves).shared
  obtain ⟨kept, hlive, hvalue⟩ := lookUp_eq_answered_iff.mp served
  obtain ⟨a, ⟨since, hlast, -⟩, hkey, rfl, -⟩ := hlogged.live?_iff.mp hlive
  obtain ⟨before, hlog⟩ := hlast.logged
  obtain ⟨hdigest, hserial⟩ := OcspKey.mk.inj hkey
  exact ⟨a, since, hlast, hvalue, hlogged.origins a (by rw [hlog]; simp), hserial, hdigest,
    fun hname hkey id => Ocsp.CertId.identifies_congr hserial hname hkey⟩

end OcspCache

/-- The fifth certificate of an issuer of another name that has the same key. -/
def AnswerSample.mallory : Certificate := AnswerSample.fifthOf (AnswerSample.issuerNamed "other")

open AnswerSample in
theorem OcspCache.served_after_staple :
    let p := run silent .standard (stapled good)
    (lookUp .standard alice root now p.shared).1 = .answered (.ok .good) ∧
      ∃ a since, LastRecorded p.shared.log a since ∧ a.answer.status = .good ∧
        a.c.serial = alice.serial := by
  have hserved : (lookUp .standard alice root now (run silent .standard (stapled good)).shared).1 =
      .answered (.ok .good) := lookUp_after_staple evaluate_good (by decide) rfl
  obtain ⟨a, since, hlast, hstatus, -, hserial, -⟩ :=
    served_for_serial_and_key silent .standard (stapled good) hserved
  exact ⟨hserved, a, since, hlast, hstatus, hserial⟩

open AnswerSample in
theorem OcspCache.served_under_other_name :
    (issuerNamed "other").subject ≠ root.subject ∧
      Ocsp.evaluate (octets good) alice root none now = .ok ⟨.good, some 1706745600⟩ ∧
      certId.Identifies alice root ∧ ¬ certId.Identifies mallory (issuerNamed "other") ∧
      (check silent .standard mallory (issuerNamed "other") now
        (takeStapled .standard (octets good) alice root now .empty).2 []).1 = .ok .good := by
  have hkey : OcspKey.of mallory (issuerNamed "other") = .of alice root := OcspKey.of_congr rfl rfl
  refine ⟨by decide, evaluate_good, identifies, fun h => ?_,
    check_takeStapled evaluate_good (by decide) hkey rfl⟩
  have hisOf : certId.isOf mallory (issuerNamed "other") = false := by decide +kernel
  exact absurd (Ocsp.CertId.isOf_iff.mpr h) (by simp [hisOf])

end PeerTrust
