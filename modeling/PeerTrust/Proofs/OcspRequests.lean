import PeerTrust.Proofs.DerReaders
import PeerTrust.Proofs.KeptAnswers
import PeerTrust.Proofs.OcspAcceptance

/-!
# What an OCSP request asks

A request is written here and read by a responder, and the answer to it is held against the same
certificate and nonce.

* `Ocsp.RequestMessage` is a request as a responder reads it, with all parts that a request may have;
  `Ocsp.RequestMessage.ofDer?` reads one;
* `Ocsp.serialOctets?_eq_some`: a serial number that is written well is asked for as it is;
* `Ocsp.Request.ofDer?_encode`: a request is read as what it says;
* `Ocsp.RequestMessage.AsksFor` says that a message asks for one certificate and carries a nonce, and
  matches no others; `Ocsp.request_asks_for` is that requests do.
-/

namespace PeerTrust.Ocsp

open Der (Reader)
open Der.Reader
open X509.Strict (Algorithm Extension encodeSequence)

/-! ## 1. Requests as they are read -/

/-- One certificate that is asked for, with extensions for it alone. -/
structure Asked where
  id : CertId
  extensions : Option (List Extension)
deriving DecidableEq, Repr, Inhabited

/-- A request: its version counted from one, who asks, what for, extensions, and the octets of a
signature. -/
structure RequestMessage where
  version : Nat
  requestor : Option Bytes
  asked : List Asked
  extensions : Option (List Extension)
  signature : Option Bytes
deriving DecidableEq, Repr, Inhabited

/-- Reads one certificate that is asked for. -/
def Asked.reader : Reader Asked :=
  within Der.tagSequence do
    let id ← CertId.reader
    return ⟨id, ← Ocsp.extensions 0⟩

namespace RequestMessage

/-- Reads all but the signature. The first version goes without saying. -/
def body : Reader RequestMessage :=
  within Der.tagSequence do
    let version ← explicit 0 (X509.Strict.version 0)
    let requestor ← explicit 1 X509.Strict.any
    let asked ← X509.Strict.sequenceOf Asked.reader
    return ⟨version.getD 0 + 1, requestor, asked, ← Ocsp.extensions 2, none⟩

/-- Reads a request. -/
def reader : Reader RequestMessage :=
  within Der.tagSequence do
    let message ← body
    return { message with signature := ← explicit 0 X509.Strict.any }

/-- The request that octets are. -/
def ofDer? (b : Bytes) : Option RequestMessage := complete reader b

end RequestMessage

/-! ## 2. Serial numbers -/

theorem normalize_of_ne_zero {x : UInt8} (h : x ≠ 0) (rest : Bytes) :
    Serial.normalize (x :: rest) = x :: rest := by
  cases rest with
  | nil => rfl
  | cons y rest => exact if_neg h

theorem natural?_isSome_iff {b : Bytes} : (Der.natural? b).isSome ↔
    Der.isMinimalInteger b = true ∧ ∃ x rest, b = x :: rest ∧ x < 128 := by
  unfold Der.natural?
  cases b with
  | nil => simp
  | cons x rest => simp

/-- A serial number in the fewest octets, with its sign, is asked for as it is. -/
theorem serialOctets?_eq_some {serial : Bytes} (canonical : (Der.natural? serial).isSome)
    (short : serial.length ≤ 20) : serialOctets? serial = some serial := by
  obtain ⟨hminimal, x, rest, rfl, hx⟩ := natural?_isSome_iff.mp canonical
  -- A zero octet in front is dropped and put back, since the next one has its top bit set.
  have hdigits : (if (Serial.normalize (x :: rest)).head?.any (128 ≤ ·) then
      0 :: Serial.normalize (x :: rest) else Serial.normalize (x :: rest)) = x :: rest := by
    by_cases hzero : x = 0
    · subst hzero
      cases rest with
      | nil => rfl
      | cons y rest =>
        have hy : 128 ≤ y := by simpa [Der.isMinimalInteger] using hminimal
        have hne : y ≠ 0 := by
          rintro rfl
          exact absurd hy (by decide)
        have hnormal : Serial.normalize (0 :: y :: rest) = y :: rest :=
          (if_pos rfl).trans (normalize_of_ne_zero hne rest)
        simp [hnormal, hy]
    · have hlow : ¬ 128 ≤ x := UInt8.not_le.mpr hx
      simp [normalize_of_ne_zero hzero, hlow]
  rw [serialOctets?, hdigits]
  exact if_neg (by omega)

/-! ## 3. Reading back -/

variable {id : CertId} {r : Request}

/-- A certificate as requests name it: by SHA-1 digests and a serial number in the fewest octets. -/
structure CertId.Plain (id : CertId) : Prop where
  digest : id.digest = ⟨Oid.sha1, none⟩
  name : id.issuerNameHash.length = 20
  key : id.issuerKeyHash.length = 20
  minimal : Der.isMinimalInteger id.serial = true
  short : id.serial.length ≤ 20

/-- The parts of a name of a certificate are short. -/
theorem CertId.Plain.length_parts (h : id.Plain) : (id.digest.encode ++
    (Der.encode Der.tagOctets id.issuerNameHash ++ (Der.encode Der.tagOctets id.issuerKeyHash ++
      Der.encode Der.tagInteger id.serial))).length ≤ 87 := by
  have hdigest : id.digest.encode.length = 9 := by rw [h.digest]; decide
  have hname := Der.length_encode_le Der.tagOctets (Nat.le_of_eq h.name) (by decide)
  have hkey := Der.length_encode_le Der.tagOctets (Nat.le_of_eq h.key) (by decide)
  have hserial := Der.length_encode_le Der.tagInteger h.short (by decide)
  simp only [List.length_append]
  omega

theorem CertId.encode_eq (id : CertId) : id.encode = Der.encode Der.tagSequence
    (id.digest.encode ++ (Der.encode Der.tagOctets id.issuerNameHash ++
      (Der.encode Der.tagOctets id.issuerKeyHash ++ Der.encode Der.tagInteger id.serial))) := by
  simp [CertId.encode, encodeSequence]

theorem CertId.Plain.reads (h : id.Plain) : Reads CertId.reader id.encode id := by
  have hparts := h.length_parts
  have hname : Reads (field Der.tagOctets) (Der.encode Der.tagOctets id.issuerNameHash)
      id.issuerNameHash := reads_field (by decide) (by rw [h.name]; decide)
  have hkey : Reads (field Der.tagOctets) (Der.encode Der.tagOctets id.issuerKeyHash)
      id.issuerKeyHash := reads_field (by decide) (by rw [h.key]; decide)
  have hdigest : Reads X509.Strict.algorithm id.digest.encode id.digest := by
    rw [h.digest]
    exact X509.Strict.reads_algorithm (by decide)
  have hserial := X509.Strict.reads_serial h.minimal (Nat.le_succ_of_le h.short)
  rw [CertId.encode_eq]
  refine reads_within (by decide) (by omega) ?_
  rw [hdigest.bind_append, hname.bind_append, hkey.bind_append, hserial.bind_all]
  rfl

theorem CertId.Plain.length_encode (h : id.Plain) : id.encode.length ≤ 93 := by
  rw [CertId.encode_eq]
  exact Der.length_encode_le Der.tagSequence h.length_parts (by decide)

theorem encodeSequence_singleton (b : Bytes) : encodeSequence [b] = Der.encode Der.tagSequence b := by
  rw [encodeSequence, List.flatten_singleton]

theorem Asked.reads (h : id.Plain) : Reads Asked.reader (encodeSequence [id.encode]) ⟨id, none⟩ := by
  have hlength := h.length_encode
  have habsent : Ocsp.extensions 0 [] = some (none, []) :=
    explicit_of_absent (by simp) (by decide)
  rw [encodeSequence_singleton]
  refine reads_within (by decide) (by omega) ?_
  rw [h.reads.bind_all, bind_of_eq_some habsent]
  rfl

theorem length_asked (h : id.Plain) : (encodeSequence [id.encode]).length ≤ 99 := by
  rw [encodeSequence_singleton]
  exact Der.length_encode_le Der.tagSequence h.length_encode (by decide)

theorem reads_asked (h : id.Plain) : Reads (X509.Strict.sequenceOf Asked.reader)
    (encodeSequence [encodeSequence [id.encode]]) [⟨id, none⟩] := by
  have hlength := length_asked h
  refine X509.Strict.reads_sequenceOf (.cons ⟨Der.encode_ne_nil _ _, Asked.reads h⟩ .nil) ?_
  rw [List.flatten_singleton]
  omega

section Nonce

variable {nonce : Bytes}

theorem length_nonceExtension (room : nonce.length + 160 ≤ 256 ^ 4) :
    (nonceExtension nonce).encode.length ≤ nonce.length + 29 := by
  have hoid : (Der.encode Der.tagOid Oid.ocspNonce.octets).length = 11 := by decide
  have hnonce := Der.length_encode_le Der.tagOctets (Nat.le_refl nonce.length) (by omega)
  have hvalue := Der.length_encode_le Der.tagOctets hnonce (by omega)
  have hparts : (Der.encode Der.tagOid Oid.ocspNonce.octets ++ [] ++
      Der.encode Der.tagOctets (Der.encode Der.tagOctets nonce)).length ≤ nonce.length + 23 := by
    simp only [List.append_nil, List.length_append]
    omega
  exact Der.length_encode_le Der.tagSequence hparts (by omega)

theorem length_extensions (room : nonce.length + 160 ≤ 256 ^ 4) :
    (encodeSequence [(nonceExtension nonce).encode]).length ≤ nonce.length + 35 := by
  rw [encodeSequence_singleton]
  exact Der.length_encode_le Der.tagSequence (length_nonceExtension room) (by omega)

theorem reads_nonce (room : nonce.length + 160 ≤ 256 ^ 4) : Reads (Ocsp.extensions 2)
    (Der.encode (Der.tagExplicit 2) (encodeSequence [(nonceExtension nonce).encode]))
    (some [nonceExtension nonce]) := by
  have hnonce := Der.length_encode_le Der.tagOctets (Nat.le_refl nonce.length) (by omega)
  have hlength := length_nonceExtension room
  have hlength' := length_extensions room
  have hextension : Reads X509.Strict.extension (nonceExtension nonce).encode (nonceExtension nonce) :=
    X509.Strict.reads_extension (by decide : X509.Strict.IsReadable Oid.ocspNonce)
      (show (Der.encode Der.tagOctets nonce).length + 128 ≤ 256 ^ 4 by omega)
  have hlist : Reads (X509.Strict.sequenceOf X509.Strict.extension)
      (encodeSequence [(nonceExtension nonce).encode]) [nonceExtension nonce] :=
    X509.Strict.reads_sequenceOf (.cons ⟨Der.encode_ne_nil _ _, hextension⟩ .nil)
      (by rw [List.flatten_singleton]; omega)
  exact reads_explicit (by decide) (by omega) hlist.all

end Nonce

/-- What a request says, once it is read. -/
def Request.message (r : Request) : RequestMessage :=
  ⟨1, none, [⟨r.id, none⟩], some [nonceExtension r.nonce], none⟩

/-- The two parts of a request. -/
def Request.parts (r : Request) : Bytes :=
  encodeSequence [encodeSequence [r.id.encode]] ++
    Der.encode (Der.tagExplicit 2) (encodeSequence [(nonceExtension r.nonce).encode])

theorem Request.encode_eq (r : Request) :
    r.encode = Der.encode Der.tagSequence (Der.encode Der.tagSequence r.parts) := by
  simp [Request.encode, Request.parts, encodeSequence]

theorem Request.length_parts (h : r.id.Plain) (room : r.nonce.length + 160 ≤ 256 ^ 4) :
    r.parts.length ≤ r.nonce.length + 146 := by
  have hlist := Der.length_encode_le Der.tagSequence (length_asked h) (by decide)
  have hnonce := Der.length_encode_le (Der.tagExplicit 2) (length_extensions room) (by omega)
  rw [parts, encodeSequence_singleton (encodeSequence [r.id.encode]), List.length_append]
  omega

/-- **A request is read as what it says.** -/
theorem Request.ofDer?_encode (h : r.id.Plain) (room : r.nonce.length + 160 ≤ 256 ^ 4) :
    RequestMessage.ofDer? r.encode = some r.message := by
  have hparts := length_parts h room
  have hbodyLength := Der.length_encode_le Der.tagSequence hparts (by omega)
  -- Neither a version nor a requestor stands before the list, which is a sequence.
  have hversion : explicit 0 (X509.Strict.version 0) r.parts = some (none, r.parts) :=
    explicit_of_absent (by rintro t ⟨⟩; decide) (by decide)
  have hrequestor : explicit 1 X509.Strict.any r.parts = some (none, r.parts) :=
    explicit_of_absent (by rintro t ⟨⟩; decide) (by decide)
  have hbody : Reads RequestMessage.body (Der.encode Der.tagSequence r.parts) r.message := by
    refine reads_within (by decide) (by omega) ?_
    rw [bind_of_eq_some hversion, bind_of_eq_some hrequestor, parts, (reads_asked h).bind_append,
      (reads_nonce room).bind_all]
    rfl
  have hunsigned : explicit 0 X509.Strict.any [] = some (none, []) :=
    explicit_of_absent (by simp) (by decide)
  have hread : Reads RequestMessage.reader r.encode r.message := by
    rw [encode_eq]
    refine reads_within (by decide) (by omega) ?_
    rw [hbody.bind_all, bind_of_eq_some hunsigned]
    rfl
  exact complete_eq_some_iff.mpr hread.all

/-! ## 4. What is asked -/

/-- A message asks for one certificate of an issuer and carries a nonce, and nothing else. What it
names is no other certificate, up to collisions of digests, and what it carries is no other nonce of
that length. -/
structure RequestMessage.AsksFor (m : RequestMessage) (c issuer : Certificate) (nonce : Bytes) :
    Prop where
  version : m.version = 1
  requestor : m.requestor = none
  unsigned : m.signature = none
  certificate : ∃ a, m.asked = [a] ∧ a.extensions = none ∧
    ∀ c' issuer', a.id.isOf c' issuer' = true ↔ c'.serial = c.serial ∧
      Sha1.digest issuer'.subject = Sha1.digest issuer.subject ∧
      Sha1.digest issuer'.publicKey.key = Sha1.digest issuer.publicKey.key
  nonce : ∃ x, m.extensions = some [x] ∧ x.oid = Oid.ocspNonce ∧ x.critical = false ∧
    ∀ nonce', nonce'.length = nonce.length → (isNonce x.value nonce' = true ↔ nonce' = nonce)

/-- The name under which a well-numbered certificate is asked for. -/
theorem certId?_eq_some {c issuer : Certificate} (canonical : (Der.natural? c.serial).isSome)
    (short : c.serial.length ≤ 20) : certId? c issuer = some ⟨⟨Oid.sha1, none⟩,
      Sha1.digest issuer.subject, Sha1.digest issuer.publicKey.key, c.serial⟩ := by
  rw [certId?, serialOctets?_eq_some canonical short, Option.map_some]

theorem isOf_sha1_iff {name key serial : Bytes} {c issuer : Certificate} :
    (⟨⟨Oid.sha1, none⟩, name, key, serial⟩ : CertId).isOf c issuer = true ↔
      c.serial = serial ∧ Sha1.digest issuer.subject = name ∧
        Sha1.digest issuer.publicKey.key = key := by
  simp only [CertId.isOf, CertId.hash?, if_true, Bool.and_eq_true, decide_eq_true_eq]
  constructor
  · rintro ⟨⟨rfl, rfl⟩, rfl⟩
    exact ⟨rfl, rfl, rfl⟩
  · rintro ⟨rfl, rfl, rfl⟩
    exact ⟨⟨rfl, rfl⟩, rfl⟩

/-- Of the nonces of one length, a nonce that is written as a string of octets is one only. -/
theorem isNonce_encode_iff {nonce nonce' : Bytes} (small : nonce.length < 256 ^ 4)
    (hlength : nonce'.length = nonce.length) :
    isNonce (Der.encode Der.tagOctets nonce) nonce' = true ↔ nonce' = nonce := by
  have hlow : Der.tagOctets &&& 0x1f ≠ 0x1f := by decide
  rw [isNonce_iff]
  constructor
  · rintro (hbare | ⟨hstring, hsmall⟩)
    · have hlonger := congrArg List.length hbare
      simp only [Der.encode, List.length_cons, List.length_append] at hlonger
      omega
    · have hread := reads_field hlow small []
      have hread' := reads_field hlow hsmall []
      rw [← hstring, hread] at hread'
      exact (Prod.mk.inj (Option.some.inj hread')).1.symm
  · rintro rfl
    exact .inr ⟨rfl, small⟩

/-- **A request asks for the certificate whose answer is accepted**, and for no other. The certificate
has a serial number in the fewest octets, twenty at most, and the nonce leaves room for what stands
around it in a length of four octets. -/
theorem request_asks_for {c issuer : Certificate} {nonce : Bytes}
    (canonical : (Der.natural? c.serial).isSome) (short : c.serial.length ≤ 20)
    (room : nonce.length + 160 ≤ 256 ^ 4) :
    ∃ r m, request? c issuer nonce = some r ∧ RequestMessage.ofDer? r.encode = some m ∧
      m.AsksFor c issuer nonce := by
  have hid : certId? c issuer = some _ := certId?_eq_some canonical short
  have hplain : CertId.Plain ⟨⟨Oid.sha1, none⟩, Sha1.digest issuer.subject,
      Sha1.digest issuer.publicKey.key, c.serial⟩ :=
    { digest := rfl
      name := Sha1.digest_length _
      key := Sha1.digest_length _
      minimal := (natural?_isSome_iff.mp canonical).1
      short := short }
  refine ⟨_, _, by rw [request?, hid, Option.map_some], Request.ofDer?_encode hplain room, ?_⟩
  exact {
    version := rfl
    requestor := rfl
    unsigned := rfl
    certificate := ⟨_, rfl, rfl, fun _ _ => isOf_sha1_iff⟩
    nonce := ⟨_, rfl, rfl, rfl, fun _ => isNonce_encode_iff (by omega)⟩ }

open AnswerSample (alice root) in
/-- The serial number begins with a zero octet, since the next one has its top bit set. -/
theorem request_asks_for_alice :
    (Der.natural? [0, 200, 1]).isSome ∧ ∃ r m,
      request? { alice with serial := [0, 200, 1] } root (List.replicate 16 7) = some r ∧
        RequestMessage.ofDer? r.encode = some m ∧
        m.AsksFor { alice with serial := [0, 200, 1] } root (List.replicate 16 7) :=
  ⟨by decide, request_asks_for (by decide) (by decide) (by decide)⟩

end PeerTrust.Ocsp
