import PeerTrust.Proofs.CrlsAtHand
import PeerTrust.Proofs.KeptAnswers
import PeerTrust.Proofs.PemBlocks

/-!
# Which CRLs are at hand

A file in PEM may hold several CRLs, one in each block.

* `Crl.allInFile` lists them; `Crl.parse_eq_ok_iff`: the first one is read;
* `LocalCrls.Consults` says what that makes of all that is given at the start, and
  `LocalCrls.consults_of_load` proves it: a CRL that stands alone is asked, and so is the first one
  of several;
* `LocalCrls.later_in_file_lost`: the others of several are not.
-/

namespace PeerTrust

open X509.Strict (encodeSequence)

/-! ## 1. The CRLs in a file -/

namespace Crl

variable {content der : Bytes} {crl : Crl}

/-- The octets of all CRLs in a file, in order: all blocks of the right kind where the file is PEM,
else the whole file. -/
def allInFile (content : Bytes) : List Bytes :=
  if Pem.looksLikePem content then
    match Pem.read content with
    | .error _ => []
    | .ok blocks => (blocks.filter (·.tag = "X509 CRL")).map (·.contents)
  else [content]

/-- The first of them is taken. -/
theorem inFile_eq_ok_iff : inFile content = .ok der ↔ (allInFile content).head? = some der := by
  unfold inFile allInFile
  cases Pem.looksLikePem content with
  | false => simp
  | true =>
    cases Pem.read content with
    | error e => simp
    | ok blocks =>
      simp only [if_true, List.head?_map, List.head?_filter]
      cases blocks.find? (·.tag = "X509 CRL") <;> simp

/-- **What is read of a file is its first CRL.** -/
theorem parse_eq_ok_iff : parse content = .ok crl ↔
    ∃ der, (allInFile content).head? = some der ∧ ofDer der = .ok crl := by
  simp only [parse, bind_eq_ok_iff, inFile_eq_ok_iff]

/-- A CRL is one of those in a file. -/
def HeldBy (crl : Crl) (content : Bytes) : Prop := ∃ der ∈ allInFile content, ofDer der = .ok crl

/-- If it is the only one, it is read. -/
theorem parse_of_heldBy (h : crl.HeldBy content) (hlone : (allInFile content).length ≤ 1) :
    parse content = .ok crl := by
  obtain ⟨der, hmem, hread⟩ := h
  have hone : allInFile content = [der] := by
    cases hall : allInFile content with
    | nil =>
      rw [hall] at hmem
      cases hmem
    | cons first rest =>
      rw [hall, List.length_cons] at hlone
      obtain rfl : rest = [] := List.length_eq_zero_iff.mp (by omega)
      rw [hall, List.mem_singleton] at hmem
      rw [hmem]
  exact parse_eq_ok_iff.mpr ⟨der, by rw [hone, List.head?_cons], hread⟩

end Crl

/-! ## 2. The CRLs that are asked -/

namespace LocalCrls

variable {files : Files} {paths : List String} {ders : List Bytes} {crls : LocalCrls}

variable (files paths ders crls) in
/-- Which of the CRLs that were given are asked. -/
structure Consults : Prop where
  /-- Every file and every string of octets gives one, -/
  count : crls.length = paths.length + ders.length
  /-- the first that it holds. -/
  first : ∀ content, Given files paths ders content →
    ∃ der crl, (Crl.allInFile content).head? = some der ∧ Crl.ofDer der = .ok crl ∧ crl ∈ crls
  /-- There are no others. -/
  only : ∀ crl ∈ crls, ∃ content der, Given files paths ders content ∧
    (Crl.allInFile content).head? = some der ∧ Crl.ofDer der = .ok crl
  /-- So nothing is lost of a file with no more than one. -/
  lone : ∀ content, Given files paths ders content → (Crl.allInFile content).length ≤ 1 →
    ∀ crl : Crl, crl.HeldBy content → crl ∈ crls
  /-- A revocation that one of those that are asked attests counts. -/
  revokes : ∀ crl ∈ crls, ∀ c issuer now, crl.Attests c issuer now .revoked →
    crls.check c issuer now = some (.ok .revoked)

/-- **Each file and each string of octets that is given has its first CRL asked.** Where it holds no
other, all its CRLs are. -/
theorem consults_of_load (h : load files paths ders = .ok crls) :
    Consults files paths ders crls := by
  refine ⟨length_load h, fun content hgiven => ?_, fun crl hcrl => ?_,
    fun content hgiven hlone crl hheld => ?_, fun crl hcrl c issuer now hattests => ?_⟩
  · obtain ⟨crl, hcrl, hparse⟩ := exists_of_given h hgiven
    obtain ⟨der, hhead, hread⟩ := Crl.parse_eq_ok_iff.mp hparse
    exact ⟨der, crl, hhead, hread, hcrl⟩
  · obtain ⟨content, hgiven, hparse⟩ := given_of_load h hcrl
    obtain ⟨der, hhead, hread⟩ := Crl.parse_eq_ok_iff.mp hparse
    exact ⟨content, der, hgiven, hhead, hread⟩
  · exact (mem_load_iff h).mpr ⟨content, hgiven, Crl.parse_of_heldBy hheld hlone⟩
  · exact check_eq_revoked_iff.mpr ⟨crl, hcrl, hattests⟩

end LocalCrls

/-! ## 3. Two CRLs in a file -/

namespace CrlSample

open AnswerSample

/-- The algorithm of the signatures. -/
def algorithm : Bytes := encodeSequence [Der.encode Der.tagOid Oid.ecdsaWithSha256.octets]

/-- What a CRL of an issuer states from the first of January to the first of February: the
certificates that it lists, and its extensions. -/
def statedBy (issuer : Certificate) (parts : List Bytes) : Bytes :=
  encodeSequence ([Der.encodeNatural 1, algorithm, issuer.subject,
    Der.encode Der.tagUtcTime (Bytes.ofText "240101000000Z"),
    Der.encode Der.tagUtcTime (Bytes.ofText "240201000000Z")] ++ parts)

/-- What one of the root states. -/
def stated (parts : List Bytes) : Bytes := statedBy root parts

/-- A signature of two numbers. -/
def signature (r s : Nat) : Bytes := encodeSequence [Der.encodeNatural r, Der.encodeNatural s]

/-- The written form. -/
def octets (stated signature : Bytes) : Bytes :=
  encodeSequence [stated, algorithm, Der.encode Der.tagBits (0 :: signature)]

/-- What is kept of it. -/
def kept (revoked : List Bytes) (coverage : Crl.Coverage) (stated signature : Bytes) : Crl where
  issuer := root.subject
  nextUpdate := some 1706745600
  revoked := revoked
  coverage := coverage
  signed := stated
  signatureAlgorithm := ⟨Oid.ecdsaWithSha256, none⟩
  signature := signature

/-- The list with one certificate. -/
def listing (serial : UInt8) : Bytes :=
  encodeSequence [encodeSequence [Der.encode Der.tagInteger [serial],
    Der.encode Der.tagUtcTime (Bytes.ofText "240101000000Z")]]

/-- The list with the fifth. -/
def fifth : Bytes := listing 5

def cleanSignature : Bytes :=
  signature 0x1156eba87abd5a984360dd58b4c3b7cf2fc59d02457b3c255df11f50b2ed8210
    0x77503b7bbd1986c3a89861165e2060f914db56620f905f5b705bde57fc15dfd9

/-- A CRL that lists nothing. -/
def clean : Crl := kept [] (.within .complete) (stated []) cleanSignature

def revokingSignature : Bytes :=
  signature 0x3d6eef4ac37aecef51772fc9507bbe38bf2b5a90f378b53b99226e6b5e8295e3
    0x145f437fbb1c4a5ee0ed8eb53ebecc8376baa3c9550c7282cadc85586b8051a2

/-- A CRL that lists the fifth certificate. -/
def revoking : Crl := kept [[5]] (.within .complete) (stated [fifth]) revokingSignature

/-- A file with both, in PEM. -/
def both : Bytes :=
  [(⟨"X509 CRL", octets (stated []) cleanSignature⟩ : Pem.Block),
    ⟨"X509 CRL", octets (stated [fifth]) revokingSignature⟩].flatMap Pem.Block.octets

theorem ofDer_clean : Crl.ofDer (octets (stated []) cleanSignature) = .ok clean := by
  decide +kernel

theorem ofDer_revoking : Crl.ofDer (octets (stated [fifth]) revokingSignature) = .ok revoking := by
  decide +kernel

theorem allInFile_both : Crl.allInFile both =
    [octets (stated []) cleanSignature, octets (stated [fifth]) revokingSignature] := by
  have hpem : Pem.looksLikePem both = true := by decide +kernel
  have htag : "X509 CRL" ≠ "" ∧ 45 ∉ Bytes.ofText "X509 CRL" := by decide
  have hread : Pem.read both = .ok _ := Pem.read_octets fun b hb => by
    rcases List.mem_pair.mp hb with rfl | rfl
    · exact htag
    · exact htag
  rw [Crl.allInFile, hpem, hread]
  rfl

theorem parse_both : Crl.parse both = .ok clean :=
  Crl.parse_eq_ok_iff.mpr ⟨_, by rw [allInFile_both, List.head?_cons], ofDer_clean⟩

theorem attests_revoking : revoking.Attests alice root now .revoked :=
  Crl.attests_iff.mpr ⟨by decide +kernel, by decide +kernel⟩

/-- A directory in which every file has both. -/
def files : Files := fun _ => .ok both

theorem load_both {ders : List Bytes} {fromStore : List Crl}
    (h : ders.mapM Crl.parse = .ok fromStore) :
    LocalCrls.load files ["both.pem"] ders = .ok (clean :: fromStore) := by
  have hfile : LocalCrls.loadFile files "both.pem" = .ok clean :=
    LocalCrls.loadFile_eq_ok_iff.mpr ⟨both, rfl, parse_both⟩
  refine LocalCrls.load_eq_ok_iff.mpr ⟨[clean], fromStore, mapM_eq_ok_iff.mpr ?_, h, rfl⟩
  rw [List.map_singleton, List.map_singleton, hfile]

end CrlSample

open AnswerSample CrlSample in
theorem LocalCrls.consults_file_and_store :
    let ders := [CrlSample.octets (stated [fifth]) revokingSignature]
    load files ["both.pem"] ders = .ok [clean, revoking] ∧
      Consults files ["both.pem"] ders [clean, revoking] ∧
      LocalCrls.check [clean, revoking] alice root now = some (.ok .revoked) := by
  have hstore : [CrlSample.octets (stated [fifth]) revokingSignature].mapM Crl.parse =
      .ok [revoking] := by decide +kernel
  have hconsults := consults_of_load (load_both hstore)
  exact ⟨load_both hstore, hconsults,
    hconsults.revokes revoking (List.mem_cons_of_mem _ List.mem_cons_self) alice root now
      attests_revoking⟩

open AnswerSample CrlSample in
theorem LocalCrls.later_in_file_lost :
    load files ["both.pem"] [] = .ok [clean] ∧ Given files ["both.pem"] [] both ∧
      revoking.HeldBy both ∧ revoking.Attests alice root now .revoked ∧
      LocalCrls.check [clean] alice root now = some (.ok .valid) := by
  have hheld : revoking.HeldBy both :=
    ⟨_, by rw [allInFile_both]; exact List.mem_cons_of_mem _ List.mem_cons_self, ofDer_revoking⟩
  exact ⟨load_both rfl, .inl ⟨_, List.mem_singleton_self _, rfl⟩, hheld, attests_revoking,
    by decide +kernel⟩

end PeerTrust
