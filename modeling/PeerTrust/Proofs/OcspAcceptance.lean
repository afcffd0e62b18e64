import PeerTrust.Ocsp.Evaluation
import PeerTrust.Proofs.Der
import PeerTrust.Proofs.Results

/-!
# When an OCSP response is accepted

The checks of a response, said without the order in which they are made:

* `SignatureRow.table` are the signatures that are understood, `scheme?_eq_some_iff` finds them in
  it;
* `ResponderId.Names`, `SignedBy` and `VerifiesUnder` say whose signature a response needs and
  when it holds: `signer_eq_ok_iff`, `verifySignature_eq_ok_iff`;
* `Authentic` is a response that decodes and is signed so: `authenticate_eq_ok_iff`;
* `CertStatus.Means` is what a stated status comes to, `States` is what signed data say of a
  certificate, nonce and clock included: `answer_eq_ok_iff`;
* `evaluate_eq_ok_iff` puts both together.
-/

namespace PeerTrust

/-- The first element with a property. -/
def IsFirst {α : Type} (p : α → Prop) (xs : List α) (x : α) : Prop :=
  ∃ before after, xs = before ++ x :: after ∧ p x ∧ ∀ y ∈ before, ¬ p y

theorem find?_eq_some_iff_isFirst {α : Type} {p : α → Prop} {test : α → Bool} {xs : List α} {x : α}
    (h : ∀ y, test y = true ↔ p y) : xs.find? test = some x ↔ IsFirst p xs x := by
  rw [List.find?_eq_some_iff_append]
  constructor
  · intro h
    obtain ⟨hx, before, after, hxs, hbefore⟩ := h
    refine ⟨before, after, hxs, (h x).mp hx, fun y hy hp => ?_⟩
    simpa [(h y).mpr hp] using hbefore y hy
  · intro h
    obtain ⟨before, after, hxs, hx, hbefore⟩ := h
    refine ⟨(h x).mpr hx, before, after, hxs, fun y hy => ?_⟩
    have : test y ≠ true := fun ht => hbefore y hy ((h y).mp ht)
    simpa using this

theorem IsFirst.mem {α : Type} {p : α → Prop} {xs : List α} {x : α} (h : IsFirst p xs x) :
    x ∈ xs := by
  obtain ⟨before, after, rfl, -⟩ := h
  simp

theorem IsFirst.unique {α : Type} {p : α → Prop} {xs : List α} {x y : α} (hx : IsFirst p xs x)
    (hy : IsFirst p xs y) : x = y := by
  classical
  have hfind (z : α) : xs.find? (p ·) = some z ↔ IsFirst p xs z :=
    find?_eq_some_iff_isFirst fun _ => decide_eq_true_iff
  exact Option.some.inj (((hfind x).mpr hx).symm.trans ((hfind y).mpr hy))

namespace Ocsp

/-! ## 1. Signatures -/

/-- A signature that is understood: the kind of key, its length where that tells the curve, the
algorithm, and the scheme they stand for. -/
structure SignatureRow where
  key : Oid
  length : Option Nat
  algorithm : Oid
  scheme : X509.SignatureScheme

namespace SignatureRow

/-- The signatures that are understood. -/
def table : List SignatureRow :=
  [⟨Oid.rsaEncryption, none, Oid.sha256WithRsa, .rsaPkcs1 .sha256 2048⟩,
   ⟨Oid.rsaEncryption, none, Oid.sha384WithRsa, .rsaPkcs1 .sha384 2048⟩,
   ⟨Oid.rsaEncryption, none, Oid.sha512WithRsa, .rsaPkcs1 .sha512 2048⟩,
   ⟨Oid.ecPublicKey, some 65, Oid.ecdsaWithSha256, .ecdsaP256 .sha256⟩,
   ⟨Oid.ecPublicKey, some 65, Oid.ecdsaWithSha384, .ecdsaP256 .sha384⟩,
   ⟨Oid.ecPublicKey, some 97, Oid.ecdsaWithSha256, .ecdsaP384 .sha256⟩,
   ⟨Oid.ecPublicKey, some 97, Oid.ecdsaWithSha384, .ecdsaP384 .sha384⟩,
   ⟨Oid.ed25519, none, Oid.ed25519, .ed25519⟩]

/-- A key and an algorithm are those of a row. -/
def Fits (row : SignatureRow) (key : X509.PublicKey) (algorithm : Oid) : Prop :=
  key.algorithm.oid = row.key ∧ algorithm = row.algorithm ∧
    ∀ n, row.length = some n → key.key.length = n

end SignatureRow

theorem curveScheme?_eq_some_iff {d : Digest} {key : Bytes} {scheme : X509.SignatureScheme} :
    curveScheme? d key = some scheme ↔
      (key.length = 65 ∧ scheme = .ecdsaP256 d) ∨ (key.length = 97 ∧ scheme = .ecdsaP384 d) := by
  unfold curveScheme?
  split
  · rename_i h
    simp [h, eq_comm]
  · rename_i h
    split <;> simp_all [eq_comm]

/-- **A scheme is chosen exactly by a row of the table.** -/
theorem scheme?_eq_some_iff {key : X509.PublicKey} {algorithm : Oid}
    {scheme : X509.SignatureScheme} :
    scheme? key algorithm = some scheme ↔
      ∃ row ∈ SignatureRow.table, row.Fits key algorithm ∧ row.scheme = scheme := by
  have rsa_ec : Oid.ecPublicKey ≠ Oid.rsaEncryption := by decide
  have rsa_ed : Oid.ed25519 ≠ Oid.rsaEncryption := by decide
  have ec_ed : Oid.ed25519 ≠ Oid.ecPublicKey := by decide
  simp only [SignatureRow.table, SignatureRow.Fits, List.mem_cons, List.not_mem_nil, or_false,
    exists_eq_or_imp, exists_eq_left, reduceCtorEq, false_implies, implies_true, and_true,
    Option.some.injEq, forall_eq']
  unfold scheme?
  by_cases hrsa : key.algorithm.oid = Oid.rsaEncryption
  · have h384 : Oid.sha384WithRsa ≠ Oid.sha256WithRsa := by decide
    have h512 : Oid.sha512WithRsa ≠ Oid.sha256WithRsa := by decide
    have h512' : Oid.sha512WithRsa ≠ Oid.sha384WithRsa := by decide
    simp only [hrsa, if_true, rsa_ec.symm, rsa_ed.symm, false_and, or_false, true_and]
    grind
  · by_cases hec : key.algorithm.oid = Oid.ecPublicKey
    · have e384 : Oid.ecdsaWithSha384 ≠ Oid.ecdsaWithSha256 := by decide
      simp only [hec, if_true, rsa_ec, if_false, ec_ed.symm, false_and, or_false, false_or,
        true_and]
      grind [curveScheme?_eq_some_iff]
    · simp only [hrsa, hec, if_false, false_and, false_or]
      grind

/-! ## 2. Signers -/

/-- A responder is named by the subject of its certificate, or by the SHA-1 digest of its key. -/
def ResponderId.Names (id : ResponderId) (c : Certificate) : Prop :=
  id = .byName c.subject ∨ id = .byKey (Sha1.digest c.publicKey.key)

theorem ResponderId.isOf_iff {id : ResponderId} {c : Certificate} :
    id.isOf c = true ↔ id.Names c := by
  cases id <;> simp [isOf, Names]

/-- Who has to have signed a response about certificates of an issuer. -/
inductive SignedBy (r : BasicResponse) (issuer : Certificate) (now : Nat) : Certificate → Prop where
  | issuer (named : r.data.responder.Names issuer) : SignedBy r issuer now issuer
  /-- The first embedded certificate of the responder, all before it being readable. It was issued
  by the issuer for this use and has not expired. -/
  | delegate {before after : List Bytes} {der : Bytes} {c : Certificate}
      (foreign : ¬ r.data.responder.Names issuer)
      (embedded : r.certificates = before ++ der :: after)
      (readable : ∀ d ∈ before, ∃ other, Certificate.ofDer d = .ok other ∧
        ¬ r.data.responder.Names other)
      (read : Certificate.ofDer der = .ok c)
      (named : r.data.responder.Names c)
      (usage : c.signsOcsp = true)
      (issued : c.IssuedBy issuer)
      (current : now ≤ c.notAfter) : SignedBy r issuer now c

section Delegates

variable {id : ResponderId} {issuer c first : Certificate} {now : Nat} {der : Bytes}
  {ders : List Bytes}

/-- A certificate of someone else is passed over. -/
theorem delegate_cons_of_not_names (hread : Certificate.ofDer der = .ok first)
    (hnot : ¬ id.Names first) :
    delegate id issuer now (der :: ders) = delegate id issuer now ders := by
  have hfalse : id.isOf first = false :=
    Bool.eq_false_iff.mpr fun ht => hnot (ResponderId.isOf_iff.mp ht)
  simp [delegate, hread, hfalse]

/-- The first certificate of the responder decides. -/
theorem delegate_cons_of_names (hread : Certificate.ofDer der = .ok first)
    (hnamed : id.Names first) :
    delegate id issuer now (der :: ders) = .ok c ↔
      first = c ∧ c.signsOcsp = true ∧ c.IssuedBy issuer ∧ now ≤ c.notAfter := by
  have htrue : id.isOf first = true := ResponderId.isOf_iff.mpr hnamed
  simp only [delegate, hread, htrue, Bool.not_true, Bool.false_eq_true, if_false]
  constructor
  · intro h
    split at h
    · cases h
    · rename_i husage
      split at h
      · cases h
      · rename_i hissued
        split at h
        · cases h
        · rename_i hcurrent
          cases h
          exact ⟨rfl, by simpa using husage, Certificate.isIssuedBy_iff.mp (by simpa using hissued),
            Nat.le_of_not_lt hcurrent⟩
  · intro h
    obtain ⟨rfl, husage, hissued, hcurrent⟩ := h
    simp [husage, Certificate.isIssuedBy_iff.mpr hissued, Nat.not_lt.mpr hcurrent]

theorem delegate_eq_ok_iff :
    delegate id issuer now ders = .ok c ↔
      ∃ before der after, ders = before ++ der :: after ∧
        (∀ d ∈ before, ∃ other, Certificate.ofDer d = .ok other ∧ ¬ id.Names other) ∧
        Certificate.ofDer der = .ok c ∧ id.Names c ∧ c.signsOcsp = true ∧
        c.IssuedBy issuer ∧ now ≤ c.notAfter := by
  constructor
  · intro h
    induction ders with
    | nil => cases h
    | cons der ders ih =>
      cases hread : Certificate.ofDer der with
      | error e => simp [delegate, hread] at h
      | ok first =>
        by_cases hnamed : id.Names first
        · obtain ⟨rfl, hmeets⟩ := (delegate_cons_of_names hread hnamed).mp h
          exact ⟨[], der, ders, rfl, by simp, hread, hnamed, hmeets⟩
        · rw [delegate_cons_of_not_names hread hnamed] at h
          obtain ⟨before, der', after, rfl, hbefore, hrest⟩ := ih h
          refine ⟨der :: before, der', after, rfl, fun d hd => ?_, hrest⟩
          rcases List.mem_cons.mp hd with rfl | hd
          · exact ⟨first, hread, hnamed⟩
          · exact hbefore d hd
  · intro h
    obtain ⟨before, der, after, rfl, hbefore, hread, hnamed, hmeets⟩ := h
    induction before with
    | nil => exact (delegate_cons_of_names hread hnamed).mpr ⟨rfl, hmeets⟩
    | cons d before ih =>
      obtain ⟨other, hother, hnot⟩ := hbefore d List.mem_cons_self
      rw [List.cons_append, delegate_cons_of_not_names hother hnot]
      exact ih fun d' hd' => hbefore d' (List.mem_cons_of_mem d hd')

end Delegates

theorem signer_eq_ok_iff {r : BasicResponse} {issuer c : Certificate} {now : Nat} :
    signer r issuer now = .ok c ↔ SignedBy r issuer now c := by
  unfold signer
  by_cases hn : r.data.responder.Names issuer
  · rw [if_pos (ResponderId.isOf_iff.mpr hn)]
    constructor
    · intro h
      cases h
      exact .issuer hn
    · intro h
      cases h with
      | issuer _ => rfl
      | delegate foreign => exact absurd hn foreign
  · rw [if_neg fun ht => hn (ResponderId.isOf_iff.mp ht), delegate_eq_ok_iff]
    constructor
    · intro h
      obtain ⟨before, der, after, h₁, h₂, h₃, h₄, h₅, h₆, h₇⟩ := h
      exact .delegate hn h₁ h₂ h₃ h₄ h₅ h₆ h₇
    · intro h
      cases h with
      | issuer named => exact absurd named hn
      | delegate _ h₁ h₂ h₃ h₄ h₅ h₆ h₇ => exact ⟨_, _, _, h₁, h₂, h₃, h₄, h₅, h₆, h₇⟩

/-- The signature of a response over the encoding of its data holds under the key of a signer, by a
scheme that is understood. -/
def VerifiesUnder (r : BasicResponse) (signer : Certificate) : Prop :=
  ∃ row ∈ SignatureRow.table, row.Fits signer.publicKey r.signatureAlgorithm.oid ∧
    row.scheme.verify signer.publicKey.key r.data.encode r.signature = true

theorem verifyData_eq_ok_iff {signer : Certificate} {algorithm : Oid} {message signature : Bytes} :
    verifyData signer algorithm message signature = .ok () ↔
      ∃ row ∈ SignatureRow.table, row.Fits signer.publicKey algorithm ∧
        row.scheme.verify signer.publicKey.key message signature = true := by
  unfold verifyData
  split
  · rename_i hnone
    constructor
    · intro h
      cases h
    · intro h
      obtain ⟨row, hrow, hfits, -⟩ := h
      rw [scheme?_eq_some_iff.mpr ⟨row, hrow, hfits, rfl⟩] at hnone
      cases hnone
  · rename_i scheme hscheme
    constructor
    · intro h
      obtain ⟨row, hrow, hfits, rfl⟩ := scheme?_eq_some_iff.mp hscheme
      refine ⟨row, hrow, hfits, ?_⟩
      by_cases hv : row.scheme.verify signer.publicKey.key message signature = true
      · exact hv
      · rw [if_neg hv] at h
        cases h
    · intro h
      obtain ⟨row, hrow, hfits, hv⟩ := h
      obtain rfl : row.scheme = scheme :=
        Option.some.inj ((scheme?_eq_some_iff.mpr ⟨row, hrow, hfits, rfl⟩).symm.trans hscheme)
      rw [if_pos hv]

theorem verifySignature_eq_ok_iff {r : BasicResponse} {issuer : Certificate} {now : Nat} :
    verifySignature r issuer now = .ok () ↔
      ∃ signer, SignedBy r issuer now signer ∧ VerifiesUnder r signer := by
  unfold verifySignature
  cases hs : signer r issuer now with
  | error e =>
    simp only [reduceCtorEq, false_iff, not_exists, not_and]
    intro c hc
    rw [signer_eq_ok_iff.mpr hc] at hs
    cases hs
  | ok c =>
    have hv : (verifyData c r.signatureAlgorithm.oid r.data.encode r.signature).mapError
        Error.badSignature = .ok () ↔ VerifiesUnder r c := by
      rw [VerifiesUnder, ← verifyData_eq_ok_iff]
      exact mapError_eq_ok_iff
    rw [hv]
    constructor
    · intro h
      exact ⟨c, signer_eq_ok_iff.mp hs, h⟩
    · intro h
      obtain ⟨c', hc', h⟩ := h
      obtain rfl : c = c' := Except.ok.inj (hs.symm.trans (signer_eq_ok_iff.mpr hc'))
      exact h

/-! ## 3. Authentic responses -/

/-- The octets are a successful response of the basic type. -/
def Decodes (response : Bytes) (r : BasicResponse) : Prop :=
  ∃ body, Response.ofDer? response = some ⟨.successful, some (Oid.ocspBasic, body)⟩ ∧
    BasicResponse.ofDer? body = some r

theorem decode_eq_ok_iff {response : Bytes} {r : BasicResponse} :
    decode response = .ok r ↔ Decodes response r := by
  unfold decode Decodes
  cases Response.ofDer? response with
  | none => simp
  | some outer =>
    obtain ⟨status, content⟩ := outer
    by_cases hstatus : status = .successful
    · cases content with
      | none => simp [hstatus]
      | some typed =>
        obtain ⟨type, body⟩ := typed
        by_cases htype : type = Oid.ocspBasic
        · cases hbasic : BasicResponse.ofDer? body <;> simp [hstatus, htype, hbasic]
        · simp [hstatus, htype]
    · simp [hstatus]

/-- A response that is signed by the issuer, or by one to whom it delegated. -/
structure Authentic (response : Bytes) (issuer : Certificate) (now : Nat) (r : BasicResponse) :
    Prop where
  decodes : Decodes response r
  signed : ∃ signer, SignedBy r issuer now signer ∧ VerifiesUnder r signer

theorem authenticate_eq_ok_iff {response : Bytes} {issuer : Certificate} {now : Nat}
    {d : ResponseData} :
    authenticate response issuer now = .ok d ↔
      ∃ r, Authentic response issuer now r ∧ r.data = d := by
  unfold authenticate
  rw [bind_eq_ok_iff]
  constructor
  · intro h
    obtain ⟨r, hdecode, h⟩ := h
    obtain ⟨_, hverify, h⟩ := bind_eq_ok_iff.mp h
    exact ⟨r, ⟨decode_eq_ok_iff.mp hdecode, verifySignature_eq_ok_iff.mp hverify⟩,
      Except.ok.inj h⟩
  · intro h
    obtain ⟨r, ⟨hdecodes, hsigned⟩, rfl⟩ := h
    refine ⟨r, decode_eq_ok_iff.mpr hdecodes, bind_eq_ok_iff.mpr ⟨(), ?_, rfl⟩⟩
    exact verifySignature_eq_ok_iff.mpr hsigned

/-! ## 4. Statements -/

/-- A certificate is named by digests of its issuer's name and key, both SHA-1 or both SHA-256, and
by its serial number. -/
def CertId.Identifies (id : CertId) (c issuer : Certificate) : Prop :=
  ∃ hash, (id.digest.oid = Oid.sha1 ∧ hash = Sha1.digest ∨
      id.digest.oid = Oid.sha256 ∧ hash = Sha256.digest) ∧
    id.issuerNameHash = hash issuer.subject ∧ id.issuerKeyHash = hash issuer.publicKey.key ∧
    id.serial = c.serial

theorem CertId.hash?_eq_some_iff {oid : Oid} {hash : Bytes → Bytes} :
    hash? oid = some hash ↔
      oid = Oid.sha1 ∧ hash = Sha1.digest ∨ oid = Oid.sha256 ∧ hash = Sha256.digest := by
  have hdistinct : Oid.sha256 ≠ Oid.sha1 := by decide
  unfold hash?
  by_cases h1 : oid = Oid.sha1
  · simp [h1, hdistinct.symm, eq_comm]
  · by_cases h256 : oid = Oid.sha256
    · simp [h256, hdistinct, eq_comm]
    · simp [h1, h256]

theorem CertId.isOf_iff {id : CertId} {c issuer : Certificate} :
    id.isOf c issuer = true ↔ id.Identifies c issuer := by
  unfold isOf Identifies
  simp only [← hash?_eq_some_iff]
  cases hash? id.digest.oid with
  | none => simp
  | some hash =>
    simp only [Bool.and_eq_true, decide_eq_true_eq, Option.some.injEq, exists_eq_left']
    constructor
    · intro h
      obtain ⟨⟨hserial, hname⟩, hkey⟩ := h
      exact ⟨hname, hkey, hserial⟩
    · intro h
      obtain ⟨hname, hkey, hserial⟩ := h
      exact ⟨⟨hserial, hname⟩, hkey⟩

/-- The value of a nonce extension is the nonce, bare or as a string of octets. A string is read only
if four octets hold its length. -/
def Echoes (value nonce : Bytes) : Prop :=
  value = nonce ∨ (value = Der.encode Der.tagOctets nonce ∧ nonce.length < 256 ^ 4)

theorem isNonce_iff {value nonce : Bytes} : isNonce value nonce = true ↔ Echoes value nonce := by
  have hlow : Der.tagOctets &&& 0x1f ≠ 0x1f := by decide
  simp only [isNonce, Echoes, Bool.or_eq_true, decide_eq_true_eq,
    Der.Reader.complete_field_eq_some_iff]
  constructor
  · intro h
    rcases h with h | ⟨-, hsmall, h⟩
    · exact .inl h
    · exact .inr ⟨h, hsmall⟩
  · intro h
    rcases h with h | ⟨h, hsmall⟩
    · exact .inl h
    · exact .inr ⟨hlow, hsmall, h⟩

/-- The first nonce, if there is one, is the one that was asked with, if one was. -/
def NonceAgrees (d : ResponseData) (nonce : Option Bytes) : Prop :=
  ∀ asked x, nonce = some asked →
    IsFirst (fun x => x.oid = Oid.ocspNonce) (d.extensions.getD []) x → Echoes x.value asked

theorem checkNonce_eq_ok_iff {d : ResponseData} {nonce : Option Bytes} :
    checkNonce d nonce = .ok () ↔ NonceAgrees d nonce := by
  unfold checkNonce NonceAgrees
  have hfirst (x : X509.Strict.Extension) :
      (d.extensions.getD []).find? (·.oid = Oid.ocspNonce) = some x ↔
        IsFirst (fun x => x.oid = Oid.ocspNonce) (d.extensions.getD []) x :=
    find?_eq_some_iff_isFirst (by simp)
  cases nonce with
  | none => simp
  | some asked =>
    cases hx : (d.extensions.getD []).find? (·.oid = Oid.ocspNonce) with
    | none =>
      simp only [true_iff]
      intro asked' x _ hfound
      rw [(hfirst x).mpr hfound] at hx
      cases hx
    | some x =>
      by_cases hecho : isNonce x.value asked = true
      · simp only [hecho, if_true, true_iff]
        intro asked' x' hasked hfound
        cases hasked
        obtain rfl : x = x' := Option.some.inj (hx.symm.trans ((hfirst x').mpr hfound))
        exact isNonce_iff.mp hecho
      · simp only [hecho, if_false, reduceCtorEq, false_iff]
        intro h
        exact hecho (isNonce_iff.mpr (h asked x rfl ((hfirst x).mp hx)))

/-- A statement is neither of a time to come nor outdated, give or take five minutes. -/
def Timely (s : SingleResponse) (now : Nat) : Prop :=
  s.thisUpdate.seconds ≤ now + 300 ∧
    ∀ next, s.nextUpdate = some next → now ≤ next.seconds + 300

theorem checkTimes_eq_ok_iff {s : SingleResponse} {now : Nat} :
    checkTimes s now = .ok () ↔ Timely s now := by
  unfold checkTimes Timely clockSkew
  by_cases hfuture : now + 300 < s.thisUpdate.seconds
  · simp only [hfuture, if_true, reduceCtorEq, false_iff, not_and]
    omega
  · have hpast : s.thisUpdate.seconds ≤ now + 300 := Nat.le_of_not_lt hfuture
    cases hnext : s.nextUpdate with
    | none => simp [hfuture, hpast]
    | some next =>
      by_cases hstale : next.seconds + 300 < now
      · simp [hfuture, hstale]
      · simp [hfuture, hstale, hpast, Nat.le_of_not_lt hstale]

/-- What a certificate status comes to. When it was revoked and why is passed over. -/
inductive CertStatus.Means : CertStatus → Status → Prop where
  | good : Means .good .good
  | revoked (since : X509.Strict.Moment) (reason : Option Nat) :
      Means (.revoked since reason) .revoked
  | unknown : Means .unknown .unknown

theorem CertStatus.means_iff {stated : CertStatus} {status : Status} :
    stated.Means status ↔ stated.toStatus = status := by
  constructor
  · intro h
    cases h <;> rfl
  · rintro rfl
    cases stated with
    | good => exact .good
    | revoked since reason => exact .revoked since reason
    | unknown => exact .unknown

/-- Signed data state an answer about a certificate: the nonce agrees, and the first statement about
the certificate is timely and gives the status and the time of the next one. -/
structure States (d : ResponseData) (c issuer : Certificate) (nonce : Option Bytes) (now : Nat)
    (a : Answer) : Prop where
  nonce : NonceAgrees d nonce
  statement : ∃ s, IsFirst (fun s => s.id.Identifies c issuer) d.responses s ∧ Timely s now ∧
    s.status.Means a.status ∧ a.nextUpdate = s.nextUpdate.map (·.seconds)

theorem answer_eq_ok_iff {d : ResponseData} {c issuer : Certificate} {nonce : Option Bytes}
    {now : Nat} {a : Answer} :
    d.answer c issuer nonce now = .ok a ↔ States d c issuer nonce now a := by
  have hfirst (s : SingleResponse) : d.responses.find? (·.id.isOf c issuer) = some s ↔
      IsFirst (fun s => s.id.Identifies c issuer) d.responses s :=
    find?_eq_some_iff_isFirst fun _ => CertId.isOf_iff
  unfold ResponseData.answer
  rw [bind_eq_ok_iff]
  constructor
  · intro h
    obtain ⟨_, hnonce, h⟩ := h
    cases hs : d.responses.find? (·.id.isOf c issuer) with
    | none =>
      rw [hs] at h
      cases h
    | some s =>
      rw [hs] at h
      obtain ⟨_, htimes, h⟩ := bind_eq_ok_iff.mp h
      cases h
      exact ⟨checkNonce_eq_ok_iff.mp hnonce, s, (hfirst s).mp hs, checkTimes_eq_ok_iff.mp htimes,
        CertStatus.means_iff.mpr rfl, rfl⟩
  · intro h
    obtain ⟨hnonce, s, hs, htimes, hstatus, hnext⟩ := h
    obtain ⟨status, nextUpdate⟩ := a
    obtain rfl : s.status.toStatus = status := CertStatus.means_iff.mp hstatus
    obtain rfl : nextUpdate = s.nextUpdate.map (·.seconds) := hnext
    refine ⟨(), checkNonce_eq_ok_iff.mpr hnonce, ?_⟩
    rw [(hfirst s).mpr hs]
    exact bind_eq_ok_iff.mpr ⟨(), checkTimes_eq_ok_iff.mpr htimes, rfl⟩

/-- What is proved of a certificate is what authentic data state of it. -/
theorem evaluate_eq_ok {response : Bytes} {c issuer : Certificate} {nonce : Option Bytes}
    {now : Nat} {a : Answer} :
    evaluate response c issuer nonce now = .ok a ↔
      ∃ d, authenticate response issuer now = .ok d ∧ d.answer c issuer nonce now = .ok a := by
  unfold evaluate
  exact bind_eq_ok_iff

/-- **A response is accepted exactly if it decodes, is signed by the issuer or by a responder to
whom the issuer delegated, answers the nonce it was asked with, and states a status of the
certificate that is neither of a time to come nor outdated.** -/
theorem evaluate_eq_ok_iff (response : Bytes) (c issuer : Certificate) (nonce : Option Bytes)
    (now : Nat) (a : Answer) :
    evaluate response c issuer nonce now = .ok a ↔
      ∃ r, Authentic response issuer now r ∧ States r.data c issuer nonce now a := by
  rw [evaluate_eq_ok]
  constructor
  · intro h
    obtain ⟨d, hd, ha⟩ := h
    obtain ⟨r, hr, rfl⟩ := authenticate_eq_ok_iff.mp hd
    exact ⟨r, hr, answer_eq_ok_iff.mp ha⟩
  · intro h
    obtain ⟨r, hr, ha⟩ := h
    exact ⟨r.data, authenticate_eq_ok_iff.mpr ⟨r, hr, rfl⟩, answer_eq_ok_iff.mpr ha⟩

end Ocsp

end PeerTrust
