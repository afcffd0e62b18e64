import PeerTrust.Proofs.PathCompleteness

/-!
# Certificates beside a response

A response brings certificates along that its signature is not over. The first one that cannot be
read, or that is the responder's, decides.

* `Ocsp.Qualifies` and `Ocsp.IsCandidate` are the certificates by which a delegate may have signed;
  `Ocsp.Leads` says that the first of the responder is one: `Ocsp.verifySignature_iff_leads`;
* `Ocsp.Harmless` is what may stand before a candidate: `Ocsp.Leads.of_candidate`, and
  `Ocsp.Guarded` that nothing else does: `Ocsp.leads_iff_guarded`;
* `Ocsp.candidates_add`: among certificates that are guarded, neither their order nor further ones
  make a difference. The other cases: if the issuer itself is named, the certificates make none
  (`Ocsp.evaluate_of_named`); else, if they are not guarded, the response is rejected
  (`Ocsp.rejected_of_not_harmless`), as `Ocsp.rejected_behind_cross` shows.
-/

namespace PeerTrust

open X509.Strict (encodeSequence)

namespace Ocsp

variable {r : BasicResponse} {issuer : Certificate} {now : Nat} {der : Bytes}
  {ders before after : List Bytes}

/-! ## 1. Candidates -/

/-- A certificate by which a delegate may have signed a response. It is meant for this use, of the
issuer and not expired, and the signature holds under its key. -/
structure Qualifies (r : BasicResponse) (issuer : Certificate) (now : Nat) (c : Certificate) :
    Prop where
  usage : c.signsOcsp = true
  issued : c.IssuedBy issuer
  current : now ≤ c.notAfter
  verifies : VerifiesUnder r c

/-- Octets that are such a certificate, of the responder. -/
def IsCandidate (r : BasicResponse) (issuer : Certificate) (now : Nat) (der : Bytes) : Prop :=
  ∃ c, Certificate.ofDer der = .ok c ∧ r.data.responder.Names c ∧ Qualifies r issuer now c

/-- Octets that are a certificate, and a candidate if it is of the responder. -/
def Harmless (r : BasicResponse) (issuer : Certificate) (now : Nat) (der : Bytes) : Prop :=
  ∃ c, Certificate.ofDer der = .ok c ∧ (r.data.responder.Names c → Qualifies r issuer now c)

/-- The first certificate of the responder is a candidate, and those before it can be read. -/
def Leads (r : BasicResponse) (issuer : Certificate) (now : Nat) (ders : List Bytes) : Prop :=
  ∃ before der after, ders = before ++ der :: after ∧
    (∀ d ∈ before, ∃ other, Certificate.ofDer d = .ok other ∧ ¬ r.data.responder.Names other) ∧
    IsCandidate r issuer now der

/-- **A candidate leads to the signer**, wherever it stands, if what stands before it is harmless. -/
theorem Leads.of_candidate (hbefore : ∀ d ∈ before, Harmless r issuer now d)
    (hder : IsCandidate r issuer now der) : Leads r issuer now (before ++ der :: after) := by
  induction before with
  | nil => exact ⟨[], der, after, rfl, by simp, hder⟩
  | cons d before ih =>
    obtain ⟨⟨c, hread, hqualifies⟩, hbefore⟩ := List.forall_mem_cons.mp hbefore
    by_cases hnamed : r.data.responder.Names c
    · exact ⟨[], d, before ++ der :: after, rfl, by simp, c, hread, hnamed, hqualifies hnamed⟩
    · obtain ⟨before', der', after', heq, hreadable, hcandidate⟩ := ih hbefore
      refine ⟨d :: before', der', after', by rw [List.cons_append, heq, List.cons_append], ?_,
        hcandidate⟩
      exact List.forall_mem_cons.mpr ⟨⟨c, hread, hnamed⟩, hreadable⟩

/-- What is not harmless stands only behind a candidate. -/
def Guarded (r : BasicResponse) (issuer : Certificate) (now : Nat) (ders : List Bytes) : Prop :=
  ∀ before der after, ders = before ++ der :: after → ¬ Harmless r issuer now der →
    ∃ d ∈ before, IsCandidate r issuer now d

theorem IsCandidate.harmless (h : IsCandidate r issuer now der) : Harmless r issuer now der := by
  obtain ⟨c, hread, -, hqualifies⟩ := h
  exact ⟨c, hread, fun _ => hqualifies⟩

/-- **There is a candidate, and it is guarded, exactly if it leads to the signer.** -/
theorem leads_iff_guarded : Leads r issuer now ders ↔
    (∃ der ∈ ders, IsCandidate r issuer now der) ∧ Guarded r issuer now ders := by
  classical
  constructor
  · rintro ⟨before, der, after, rfl, hbefore, hder⟩
    refine ⟨⟨der, by simp, hder⟩, fun before' der' after' heq hharm => ?_⟩
    -- the candidate is harmless, and so is what stands before it
    rcases List.append_eq_append_iff.mp heq with ⟨between, rfl, htail⟩ | ⟨between, rfl, htail⟩
    · cases between with
      | nil =>
        obtain ⟨rfl, -⟩ := List.cons_eq_cons.mp htail
        exact absurd hder.harmless hharm
      | cons d between =>
        obtain ⟨rfl, -⟩ := List.cons_eq_cons.mp htail
        exact ⟨der, by simp, hder⟩
    · cases between with
      | nil =>
        obtain ⟨rfl, -⟩ := List.cons_eq_cons.mp htail
        exact absurd hder.harmless hharm
      | cons d between =>
        obtain ⟨rfl, -⟩ := List.cons_eq_cons.mp htail
        obtain ⟨other, hread, hnot⟩ := hbefore der' (by simp)
        exact absurd ⟨other, hread, fun hnamed => absurd hnamed hnot⟩ hharm
  · rintro ⟨⟨der, hmem, hder⟩, hguarded⟩
    -- nothing before the first candidate is harmful, as no candidate is before that
    obtain ⟨first, before, after, rfl, hfirst, hbefore⟩ :
        ∃ first, IsFirst (IsCandidate r issuer now) ders first := by
      have hfind : (ders.find? (IsCandidate r issuer now ·)).isSome :=
        List.find?_isSome.mpr ⟨der, hmem, decide_eq_true hder⟩
      obtain ⟨first, hfirst⟩ := Option.isSome_iff_exists.mp hfind
      exact ⟨first, (find?_eq_some_iff_isFirst fun _ => decide_eq_true_iff).mp hfirst⟩
    refine .of_candidate (fun d hd => ?_) hfirst
    by_contra hharm
    obtain ⟨left, right, rfl⟩ := List.append_of_mem hd
    obtain ⟨d', hd', hcandidate⟩ := hguarded left d (right ++ first :: after) (by simp) hharm
    exact hbefore d' (List.mem_append_left _ hd') hcandidate

/-! ## 2. Responses that differ in their certificates -/

/-- The response with other certificates. -/
def BasicResponse.withCertificates (r : BasicResponse) (ders : List Bytes) : BasicResponse :=
  { r with certificates := ders }

/-- The signature of a delegate holds exactly if its certificate is led to. -/
theorem verifySignature_iff_leads (foreign : ¬ r.data.responder.Names issuer) :
    verifySignature (r.withCertificates ders) issuer now = .ok () ↔ Leads r issuer now ders := by
  rw [verifySignature_eq_ok_iff]
  constructor
  · rintro ⟨c, hsigned, hverifies⟩
    cases hsigned with
    | issuer named => exact absurd named foreign
    | @delegate before after der _ _ embedded readable read named usage issued current =>
      exact ⟨before, der, after, embedded, readable, c, read, named,
        ⟨usage, issued, current, hverifies⟩⟩
  · rintro ⟨before, der, after, embedded, readable, c, read, named, hqualifies⟩
    exact ⟨c, .delegate foreign embedded readable read named hqualifies.usage hqualifies.issued
      hqualifies.current, hqualifies.verifies⟩

/-- That of the issuer holds or not, whatever the certificates are. -/
theorem verifySignature_iff_issuer (named : r.data.responder.Names issuer) :
    verifySignature (r.withCertificates ders) issuer now = .ok () ↔ VerifiesUnder r issuer := by
  rw [verifySignature_eq_ok_iff]
  constructor
  · rintro ⟨c, hsigned, hverifies⟩
    cases hsigned with
    | issuer => exact hverifies
    | delegate foreign => exact absurd named foreign
  · exact fun hverifies => ⟨issuer, .issuer named, hverifies⟩

/-- **Among guarded certificates a signature holds if the issuer named signed, or if there is a
candidate.** -/
theorem verifySignature_iff_of_guarded (h : Guarded r issuer now ders) :
    verifySignature (r.withCertificates ders) issuer now = .ok () ↔
      (r.data.responder.Names issuer ∧ VerifiesUnder r issuer) ∨
        (¬ r.data.responder.Names issuer ∧ ∃ der ∈ ders, IsCandidate r issuer now der) := by
  by_cases hnamed : r.data.responder.Names issuer
  · rw [verifySignature_iff_issuer hnamed]
    simp only [hnamed, true_and, not_true_eq_false, false_and, or_false]
  · rw [verifySignature_iff_leads hnamed, leads_iff_guarded]
    simp only [hnamed, h, and_true, false_and, not_false_eq_true, true_and, false_or]

/-- A response that can be read proves what its data state, if its signature holds. -/
theorem evaluate_of_decodes {response : Bytes} {c : Certificate} {nonce : Option Bytes}
    (decodes : Decodes response r) : evaluate response c issuer nonce now =
      verifySignature r issuer now >>= fun _ => r.data.answer c issuer nonce now := by
  simp only [evaluate, authenticate, decode_eq_ok_iff.mpr decodes, bind, Except.bind]
  cases verifySignature r issuer now <;> rfl

section Responses

variable {response response' : Bytes} {c : Certificate} {nonce : Option Bytes} {a : Answer}

/-- **Where the issuer is named, the certificates make no difference**, whatever they are and even
where they cannot be read. -/
theorem evaluate_of_named (decodes : Decodes response r)
    (decodes' : Decodes response' (r.withCertificates ders))
    (named : r.data.responder.Names issuer) :
    evaluate response' c issuer nonce now = evaluate response c issuer nonce now := by
  have hissuer : r.data.responder.isOf issuer = true := ResponderId.isOf_iff.mpr named
  have hverify : verifySignature (r.withCertificates ders) issuer now =
      verifySignature r issuer now := by
    simp only [verifySignature, signer, BasicResponse.withCertificates, hissuer, if_true]
  rw [evaluate_of_decodes decodes, evaluate_of_decodes decodes', hverify]
  rfl

/-- **Where it is not, a response is accepted if its certificates lead to the signer.** -/
theorem evaluate_iff_leads (decodes : Decodes response r)
    (foreign : ¬ r.data.responder.Names issuer) :
    evaluate response c issuer nonce now = .ok a ↔
      Leads r issuer now r.certificates ∧ r.data.answer c issuer nonce now = .ok a := by
  have hverify : verifySignature r issuer now = .ok () ↔ Leads r issuer now r.certificates :=
    verifySignature_iff_leads foreign
  rw [evaluate_of_decodes decodes, bind_eq_ok_iff]
  simp only [hverify]
  constructor
  · rintro ⟨_, hleads, hanswer⟩
    exact ⟨hleads, hanswer⟩
  · rintro ⟨hleads, hanswer⟩
    exact ⟨(), hleads, hanswer⟩

/-- **So one that is not harmless, before any candidate, is enough to reject it**, whatever comes
behind. -/
theorem rejected_of_not_harmless (decodes : Decodes response r)
    (foreign : ¬ r.data.responder.Names issuer)
    (embedded : r.certificates = before ++ der :: after)
    (none_before : ∀ d ∈ before, ¬ IsCandidate r issuer now d)
    (harmful : ¬ Harmless r issuer now der) : evaluate response c issuer nonce now ≠ .ok a := by
  rw [Ne, evaluate_iff_leads decodes foreign, leads_iff_guarded]
  rintro ⟨⟨-, hguarded⟩, -⟩
  obtain ⟨d, hd, hcandidate⟩ := hguarded before der after embedded harmful
  exact none_before d hd hcandidate

end Responses

/-- **Certificates beside a response only add candidates**, as long as they are guarded. If a
delegate has signed whose certificate is among them, and no issuer of the same identity has not, the
signature holds, whatever the others are. Whether a response is accepted depends neither on their
order nor on further ones. -/
theorem candidates_add {response response' : Bytes} (decodes : Decodes response r)
    (decodes' : Decodes response' (r.withCertificates ders))
    (guarded : Guarded r issuer now r.certificates) (guarded' : Guarded r issuer now ders) :
    ((∃ der ∈ r.certificates, IsCandidate r issuer now der) →
      (r.data.responder.Names issuer → VerifiesUnder r issuer) →
      verifySignature r issuer now = .ok () ∧
        (r.certificates ⊆ ders → ∀ c nonce,
          evaluate response' c issuer nonce now = evaluate response c issuer nonce now)) ∧
    ((∀ der, der ∈ ders ↔ der ∈ r.certificates) → ∀ c nonce a,
      evaluate response' c issuer nonce now = .ok a ↔ evaluate response c issuer nonce now = .ok a) := by
  have hverify : verifySignature r issuer now = .ok () ↔ _ :=
    verifySignature_iff_of_guarded guarded
  have hverify' := verifySignature_iff_of_guarded guarded'
  constructor
  · intro hcandidate hown
    have hholds {ders : List Bytes} (h : ∃ der ∈ ders, IsCandidate r issuer now der) :
        (r.data.responder.Names issuer ∧ VerifiesUnder r issuer) ∨
          (¬ r.data.responder.Names issuer ∧ ∃ der ∈ ders, IsCandidate r issuer now der) := by
      by_cases hnamed : r.data.responder.Names issuer
      · exact .inl ⟨hnamed, hown hnamed⟩
      · exact .inr ⟨hnamed, h⟩
    refine ⟨hverify.mpr (hholds hcandidate), fun hsub c nonce => ?_⟩
    obtain ⟨der, hmem, hder⟩ := hcandidate
    rw [evaluate_of_decodes decodes, evaluate_of_decodes decodes',
      hverify.mpr (hholds ⟨der, hmem, hder⟩), hverify'.mpr (hholds ⟨der, hsub hmem, hder⟩)]
    rfl
  · intro hsame c nonce a
    have hboth : verifySignature (r.withCertificates ders) issuer now = .ok () ↔
        verifySignature r issuer now = .ok () := by
      rw [hverify, hverify']
      simp only [hsame]
    rw [evaluate_of_decodes decodes, evaluate_of_decodes decodes', bind_eq_ok_iff, bind_eq_ok_iff]
    simp only [hboth]
    rfl

end Ocsp

/-! ## 3. A responder with two certificates -/

namespace DelegateSample

open AnswerSample (named root alice now)
open CrlSample (algorithm signature)
open PathSample (point mid)

/-- The key of a responder. -/
def key : Bytes :=
  point 0x72e1bc2c90bf061300ba9e4ca70b17457f981e8d5fbc6b76934f5dd8524c13c8
    0xcc888f3bd8b9b4491e15f92625a03acd424146a423cc6a34c7deb4346dca7e22

/-- The extensions of a certificate whose subject signs OCSP responses. -/
def purpose : Bytes :=
  Der.encode (Der.tagExplicit 3) (encodeSequence [encodeSequence
    [Der.encode Der.tagOid Oid.extendedKeyUsage.octets, Der.encode Der.tagOctets
      (encodeSequence [Der.encode Der.tagOid Oid.ocspSigning.octets])]])

/-- What a certificate of it states, from the year 2020 to 2040. -/
def stated (serial : UInt8) (issuer : String) : Bytes :=
  encodeSequence [Der.encode (Der.tagExplicit 0) (Der.encodeNatural 2),
    Der.encode Der.tagInteger [serial], algorithm, named issuer,
    encodeSequence [Der.encode Der.tagUtcTime (Bytes.ofText "200101000000Z"),
      Der.encode Der.tagUtcTime (Bytes.ofText "400101000000Z")],
    named "responder",
    encodeSequence [encodeSequence [Der.encode Der.tagOid Oid.ecPublicKey.octets,
      Der.encode Der.tagOid Oid.curveP256.octets], Der.encode Der.tagBits (0 :: key)],
    purpose]

/-- The certificate with a signature. -/
def certificate (serial : UInt8) (issuer : String) (signature : Bytes) : Certificate where
  der := CrlSample.octets (stated serial issuer) signature
  subject := named "responder"
  issuer := named issuer
  serial := [serial]
  commonName := some "responder"
  publicKey := ⟨⟨Oid.ecPublicKey, some ⟨.universal, false, 6, Oid.curveP256.octets,
    Der.encode Der.tagOid Oid.curveP256.octets⟩⟩, key⟩
  responderUrls := []
  crlUrls := []
  isCa := false
  signsOcsp := true
  notAfter := 2208988800
  signed := stated serial issuer
  signatureAlgorithm := ⟨Oid.ecdsaWithSha256, none⟩
  signature := signature

/-- Its certificate by the root. -/
def own : Certificate :=
  certificate 8 "root"
    (signature 0x94107c409a37db77f01e1f5f4fe87c65e2aafece7a5822b88167728cee03cb53
      0xae283a2ff37c7d88ea3b42bd4fd8cf29f49db71eb15d079934fa9e01e4d89fa4)

/-- Its certificate by another root. -/
def cross : Certificate :=
  certificate 7 "old"
    (signature 0xe9c17e37322df3caf901084ca04d0c220c228a64f54d39ef57b0445d2a31dd79
      0xdd73e5c6f3c730b6ba14b21ce2038cb11c241156f3ae4791f8545e05488673c6)

/-- A response about the fifth certificate of the root that the responder signed. -/
def signed (ders : List Bytes) : Ocsp.BasicResponse where
  data := { AnswerSample.good.data with responder := .byName (named "responder") }
  signatureAlgorithm := ⟨Oid.ecdsaWithSha256, none⟩
  signature := signature 0xd779796935f471c5d1d887d11c36a16076422c55a08ddc1fc9e59ae75cf585d0
    0x7b20f5d0d3f16b4045dfd09279c6c3af3007743ebbab6454ac782a15706fdb43
  certificates := ders

/-- The written form, with the certificates. -/
def octets (r : Ocsp.BasicResponse) : Bytes :=
  encodeSequence [Der.encode Der.tagEnumerated [0],
    Der.encode (Der.tagExplicit 0) (encodeSequence [Der.encode Der.tagOid Oid.ocspBasic.octets,
      Der.encode Der.tagOctets (encodeSequence [r.data.encode, r.signatureAlgorithm.encode,
        Der.encode Der.tagBits (0 :: r.signature),
        Der.encode (Der.tagExplicit 0) (encodeSequence r.certificates)])])]

theorem decodes_own_first :
    Ocsp.Decodes (octets (signed [own.der, cross.der])) (signed [own.der, cross.der]) :=
  Ocsp.decode_eq_ok_iff.mp (by decide +kernel)

theorem decodes_cross_first :
    Ocsp.Decodes (octets (signed [cross.der, own.der])) (signed [cross.der, own.der]) :=
  Ocsp.decode_eq_ok_iff.mp (by decide +kernel)

/-- The responder is not the root. -/
theorem foreign (ders : List Bytes) : ¬ (signed ders).data.responder.Names root := by
  have hnot : (signed []).data.responder.isOf root = false := by decide +kernel
  exact fun h => Bool.eq_false_iff.mp hnot (Ocsp.ResponderId.isOf_iff.mpr h)

theorem candidate_own (ders : List Bytes) : Ocsp.IsCandidate (signed ders) root now own.der := by
  have hread : Certificate.ofDer own.der = .ok own := by decide +kernel
  have hissued : own.IssuedBy root := Certificate.isIssuedBy_iff.mp (by decide +kernel)
  have hverified : Ocsp.verifyData own Oid.ecdsaWithSha256 (signed []).data.encode
      (signed []).signature = .ok () := by decide +kernel
  exact ⟨own, hread, .inl rfl, rfl, hissued, by decide, Ocsp.verifyData_eq_ok_iff.mp hverified⟩

/-- A certificate of someone else is passed over. -/
theorem harmless_mid (ders : List Bytes) : Ocsp.Harmless (signed ders) root now mid.der := by
  have hnot : (signed []).data.responder.isOf mid = false := by decide +kernel
  exact ⟨mid, PathSample.ofDer_mid, fun h =>
    absurd (Ocsp.ResponderId.isOf_iff.mpr h) (Bool.eq_false_iff.mp hnot)⟩

/-- The responder states of the certificate what the root does. -/
theorem states_signed (ders : List Bytes) :
    Ocsp.States (signed ders).data alice root none now ⟨.good, some 1706745600⟩ := by
  have hgood : Ocsp.States AnswerSample.good.data alice root none now ⟨.good, some 1706745600⟩ :=
    AnswerSample.states_response (by decide) (by decide)
  exact ⟨hgood.nonce, hgood.statement⟩

end DelegateSample

open AnswerSample (root now) in
open PathSample (mid) in
open DelegateSample in
theorem Ocsp.candidates_add_before_cross :
    let ders := [own.der, cross.der]
    let ders' := [mid.der, own.der, cross.der]
    Decodes (octets (signed ders)) (signed ders) ∧ Decodes (octets (signed ders')) (signed ders') ∧
      Guarded (signed ders) root now ders ∧ Guarded (signed ders) root now ders' ∧
      verifySignature (signed ders) root now = .ok () ∧
      ∀ c nonce, evaluate (octets (signed ders')) c root nonce now =
        evaluate (octets (signed ders)) c root nonce now := by
  intro ders ders'
  have hdecodes' : Decodes (octets (signed ders')) (signed ders') :=
    decode_eq_ok_iff.mp (by decide +kernel)
  have hown : IsCandidate (signed ders) root now own.der := candidate_own ders
  have hguarded : Guarded (signed ders) root now ders :=
    (leads_iff_guarded.mp (Leads.of_candidate (List.forall_mem_nil _) hown)).2
  have hguarded' : Guarded (signed ders) root now ders' :=
    (leads_iff_guarded.mp (Leads.of_candidate
      (List.forall_mem_singleton.mpr (harmless_mid ders)) hown)).2
  obtain ⟨hadd, -⟩ := candidates_add decodes_own_first hdecodes' hguarded hguarded'
  obtain ⟨hverified, hsame⟩ :=
    hadd ⟨own.der, List.mem_cons_self, hown⟩ fun h => absurd h (foreign ders)
  exact ⟨decodes_own_first, hdecodes', hguarded, hguarded', hverified,
    hsame (List.subset_cons_self _ _)⟩

open AnswerSample (root alice now) in
open DelegateSample in
theorem Ocsp.rejected_behind_cross :
    IsCandidate (signed [cross.der, own.der]) root now own.der ∧
      evaluate (octets (signed [cross.der, own.der])) alice root none now =
        .error (.foreignResponder "responder" "serial:") ∧
      evaluate (octets (signed [own.der, cross.der])) alice root none now =
        .ok ⟨.good, some 1706745600⟩ := by
  refine ⟨candidate_own _, ?_, ?_⟩
  · have hverify : verifySignature (signed [cross.der, own.der]) root now =
        .error (.foreignResponder "responder" "serial:") := by decide +kernel
    rw [evaluate_of_decodes decodes_cross_first, hverify]
    rfl
  · have hleads : Leads (signed [own.der, cross.der]) root now [own.der, cross.der] :=
      Leads.of_candidate (List.forall_mem_nil _) (candidate_own _)
    have hverify : verifySignature (signed [own.der, cross.der]) root now = .ok () :=
      (verifySignature_iff_leads (foreign _)).mpr hleads
    have hstates := answer_eq_ok_iff.mpr (states_signed [own.der, cross.der])
    rw [evaluate_of_decodes decodes_own_first]
    exact bind_eq_ok_iff.mpr ⟨(), hverify, hstates⟩

end PeerTrust
