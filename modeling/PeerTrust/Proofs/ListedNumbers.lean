import PeerTrust.Proofs.CrlFiles

/-!
# Which certificates a CRL lists

A CRL lists the certificates whose serial numbers are on its list. Either side may write a number
with more octets than it needs.

* `Serial.ComparesByValue` is what is expected of a form in which serial numbers are compared;
* `X509.RevocationList.Has` says that a number is on a list, in whatever octets, and
  `Crl.lists_of_iff` that a CRL lists a certificate exactly then;
* `Crl.Reliable` is what is asked of a CRL before a certificate is looked up in it:
  `Crl.Reliable.statusOf_eq` is what it says if it can be relied on,
  `Crl.exists_error_of_not_reliable` what if not, and `Crl.statusOf_eq_revoked_iff`,
  `statusOf_eq_valid_iff` and `statusOf_eq_someReasons_iff` tell which answer is given when;
* `Crl.FindsByValue` puts together what the values decide, and `Crl.finds_by_value` proves it of
  every file that is read as a CRL.
-/

namespace PeerTrust

open X509.Strict (encodeSequence)

/-! ## 1. Forms of a number -/

/-- In this form, serial numbers are the same exactly if their values are. -/
structure Serial.ComparesByValue (form : Bytes → Bytes) : Prop where
  /-- Two that are not empty have one form exactly if they have one value. -/
  same : ∀ a b : Bytes, a ≠ [] → b ≠ [] → (form a = form b ↔ a.toNat = b.toNat)
  idempotent : ∀ a, form (form a) = form a
  nonempty : ∀ a, a ≠ [] → form a ≠ []
  /-- Zeros in front make no difference, -/
  padded : ∀ n a, a ≠ [] → form (List.replicate n 0 ++ a) = form a
  /-- and the form lacks nothing else. -/
  zeros : ∀ a, ∃ n, List.replicate n 0 ++ form a = a

/-! ## 2. Numbers on a list -/

/-- A number is on a list, in whatever octets. -/
def X509.RevocationList.Has (list : X509.RevocationList) (number : Nat) : Prop :=
  ∃ serial ∈ list.serials, serial.toNat = number

namespace Crl

variable {crl crl' : Crl} {list : X509.RevocationList} {c c' issuer : Certificate} {now : Nat}

/-- **A CRL lists a certificate exactly if its number is on the list.** A certificate without the
octets of a number is not listed. -/
theorem lists_of_iff (hserials : [] ∉ list.serials) :
    (of list).lists c = true ↔ c.serial ≠ [] ∧ list.Has c.serial.toNat := by
  rw [lists_iff]
  by_cases hc : c.serial = []
  · -- no number that is kept is without octets
    refine iff_of_false (fun hkept => ?_) fun h => h.1 hc
    obtain ⟨written, hwritten, hform⟩ := isNormal_of hserials _ hkept
    rw [hc] at hform
    exact hwritten (Serial.normalize_eq_nil_iff.mp hform.symm)
  · rw [and_iff_right hc, names_iff hc (isNormal_of hserials), names_of_iff]
    rfl

/-! ## 3. What is said of a certificate -/

/-- A CRL can be relied on, whatever the certificate: it is understood, it is its issuer's word, and
no newer one is due. -/
structure Reliable (crl : Crl) (issuer : Certificate) (now : Nat) : Prop where
  direct : ∃ scope, crl.coverage = .within scope ∧ scope.indirect = false
  signed : issuer.publicKey.verify crl.signatureAlgorithm crl.signed crl.signature = .ok ()
  current : ∀ next, crl.nextUpdate = some next → now ≤ next

/-- What it says then depends on whether it lists the certificate, and on its reasons. -/
theorem Reliable.statusOf_eq (h : crl.Reliable issuer now) : ∃ scope,
    crl.coverage = .within scope ∧ ∀ c, crl.statusOf c issuer now =
      if crl.lists c then .ok .revoked
      else if scope.onlySomeReasons then .error (.someReasons issuer.displayName)
      else .ok .valid := by
  obtain ⟨scope, hwithin, hdirect⟩ := h.direct
  have hfresh : crl.isStale now = false := isStale_eq_false_iff.mpr h.current
  refine ⟨scope, hwithin, fun c => ?_⟩
  unfold statusOf
  simp only [hwithin, h.signed, hfresh, hdirect, Bool.false_eq_true, if_false]

/-- **A CRL that cannot be relied on says the same of all certificates**: why not. -/
theorem exists_error_of_not_reliable (h : ¬ crl.Reliable issuer now) :
    ∃ e, e ≠ .someReasons issuer.displayName ∧ ∀ c, crl.statusOf c issuer now = .error e := by
  unfold statusOf
  cases hcoverage : crl.coverage with
  | unusable x => exact ⟨.unusable issuer.displayName x, nofun, fun _ => rfl⟩
  | within scope =>
    cases hsigned : issuer.publicKey.verify crl.signatureAlgorithm crl.signed crl.signature with
    | error e => exact ⟨.badSignature issuer.displayName e, nofun, fun _ => rfl⟩
    | ok _ =>
      cases hstale : crl.isStale now with
      | true => exact ⟨.stale issuer.displayName, nofun, fun _ => rfl⟩
      | false =>
        cases hindirect : scope.indirect with
        | true => exact ⟨.indirect issuer.displayName, nofun, fun _ => by simp [hindirect]⟩
        | false =>
          have hreliable : crl.Reliable issuer now :=
            ⟨⟨scope, hcoverage, hindirect⟩, hsigned, isStale_eq_false_iff.mp hstale⟩
          exact absurd hreliable h

theorem countsAll_iff {scope : Scope} (h : crl.coverage = .within scope) :
    crl.CountsAll ↔ scope.onlySomeReasons = false := by
  constructor
  · intro hall
    exact hall scope h
  · intro hreasons scope' h'
    exact scope_unique h h' ▸ hreasons

/-- An answer that is none of those other errors is given by a CRL that can be relied on only. -/
theorem statusOf_eq_iff_reliable_and {answer : Except CrlError CrlStatus} {told : Prop}
    (hanswer : ∀ e, answer = .error e → e = .someReasons issuer.displayName)
    (h : crl.Reliable issuer now → (crl.statusOf c issuer now = answer ↔ told)) :
    crl.statusOf c issuer now = answer ↔ crl.Reliable issuer now ∧ told := by
  by_cases hreliable : crl.Reliable issuer now
  · rw [h hreliable, and_iff_right hreliable]
  · obtain ⟨e, hother, hstatus⟩ := exists_error_of_not_reliable hreliable
    rw [hstatus]
    exact iff_of_false (fun he => hother (hanswer e he.symm)) fun htold => hreliable htold.1

/-- It says that a certificate is revoked exactly if it can be relied on and lists it. -/
theorem statusOf_eq_revoked_iff : crl.statusOf c issuer now = .ok .revoked ↔
    crl.Reliable issuer now ∧ crl.lists c = true := by
  refine statusOf_eq_iff_reliable_and nofun fun hreliable => ?_
  obtain ⟨scope, -, hstatus⟩ := hreliable.statusOf_eq
  rw [hstatus]
  cases crl.lists c <;> cases scope.onlySomeReasons <;> simp

/-- It says that one is valid exactly if it can be relied on for all reasons and does not list
it. -/
theorem statusOf_eq_valid_iff : crl.statusOf c issuer now = .ok .valid ↔
    crl.Reliable issuer now ∧ ¬ crl.lists c = true ∧ crl.CountsAll := by
  refine statusOf_eq_iff_reliable_and nofun fun hreliable => ?_
  obtain ⟨scope, hwithin, hstatus⟩ := hreliable.statusOf_eq
  rw [hstatus, countsAll_iff hwithin]
  cases crl.lists c <;> cases scope.onlySomeReasons <;> simp

/-- It says that it cannot tell exactly if it can be relied on for some reasons only and does not
list it. -/
theorem statusOf_eq_someReasons_iff :
    crl.statusOf c issuer now = .error (.someReasons issuer.displayName) ↔
      crl.Reliable issuer now ∧ ¬ crl.lists c = true ∧ ¬ crl.CountsAll := by
  refine statusOf_eq_iff_reliable_and (fun e he => (Except.error.inj he).symm) fun hreliable => ?_
  obtain ⟨scope, hwithin, hstatus⟩ := hreliable.statusOf_eq
  rw [hstatus, countsAll_iff hwithin]
  cases crl.lists c <;> cases scope.onlySomeReasons <;> simp

/-- Two CRLs that can be relied on, for the same reasons, say the same of certificates that they
both list, or both do not. -/
theorem Reliable.statusOf_eq_statusOf (h : crl.Reliable issuer now)
    (h' : crl'.Reliable issuer now) (hcounts : crl'.CountsAll ↔ crl.CountsAll)
    (hlists : crl'.lists c' = crl.lists c) :
    crl'.statusOf c' issuer now = crl.statusOf c issuer now := by
  obtain ⟨scope, hwithin, hstatus⟩ := h.statusOf_eq
  obtain ⟨scope', hwithin', hstatus'⟩ := h'.statusOf_eq
  have hreasons : scope'.onlySomeReasons = scope.onlySomeReasons := by
    rw [countsAll_iff hwithin, countsAll_iff hwithin'] at hcounts
    revert hcounts
    cases scope.onlySomeReasons <;> cases scope'.onlySomeReasons <;> decide
  rw [hstatus, hstatus', hlists, hreasons]

/-! ## 4. Lists in any octets -/

/-- What a CRL says goes by the values of the numbers on its list, and of that of a certificate. -/
structure FindsByValue (crl : Crl) (list : X509.RevocationList) : Prop where
  /-- It lists a certificate exactly if its number is on the list. -/
  listed : ∀ c, crl.lists c = true ↔ c.serial ≠ [] ∧ list.Has c.serial.toNat
  /-- A certificate is then revoked, -/
  revoked : ∀ c issuer now, c.serial ≠ [] →
    (crl.statusOf c issuer now = .ok .revoked ↔
      crl.Reliable issuer now ∧ list.Has c.serial.toNat)
  /-- else it is valid, -/
  valid : ∀ c issuer now, c.serial ≠ [] →
    (crl.statusOf c issuer now = .ok .valid ↔
      crl.Reliable issuer now ∧ ¬ list.Has c.serial.toNat ∧ crl.CountsAll)
  /-- unless there may be reasons that do not count. -/
  limited : ∀ c issuer now, c.serial ≠ [] →
    (crl.statusOf c issuer now = .error (.someReasons issuer.displayName) ↔
      crl.Reliable issuer now ∧ ¬ list.Has c.serial.toNat ∧ ¬ crl.CountsAll)
  /-- A CRL that cannot be relied on says the same of all. -/
  unreliable : ∀ issuer now, ¬ crl.Reliable issuer now →
    ∃ e, ∀ c, crl.statusOf c issuer now = .error e
  /-- The number of a certificate in other octets changes nothing, not even an error. -/
  rewritten : ∀ c c' issuer now, c.serial ≠ [] → c'.serial ≠ [] →
    c'.serial.toNat = c.serial.toNat → crl.statusOf c' issuer now = crl.statusOf c issuer now
  /-- Nor do those on the list, as far as both CRLs can be relied on, for the same reasons. -/
  relisted : ∀ (list' : X509.RevocationList) (issuer : Certificate) (now : Nat),
    [] ∉ list'.serials → (∀ number, list'.Has number ↔ list.Has number) →
    crl.Reliable issuer now → (of list').Reliable issuer now →
    ((of list').CountsAll ↔ crl.CountsAll) →
      ∀ c, (of list').statusOf c issuer now = crl.statusOf c issuer now

/-- What is kept of a list whose numbers all have octets. -/
theorem findsByValue_of (hserials : [] ∉ list.serials) : (of list).FindsByValue list := by
  have hlists (c : Certificate) (hc : c.serial ≠ []) :
      (of list).lists c = true ↔ list.Has c.serial.toNat :=
    (lists_of_iff hserials).trans (and_iff_right hc)
  refine ⟨fun c => lists_of_iff hserials, fun c issuer now hc => ?_, fun c issuer now hc => ?_,
    fun c issuer now hc => ?_, fun issuer now h => ?_, fun c c' issuer now hc hc' hvalue => ?_,
    fun list' issuer now hserials' hsame h h' hcounts c => ?_⟩
  · rw [statusOf_eq_revoked_iff, hlists c hc]
  · rw [statusOf_eq_valid_iff, hlists c hc]
  · rw [statusOf_eq_someReasons_iff, hlists c hc]
  · obtain ⟨e, -, hstatus⟩ := exists_error_of_not_reliable h
    exact ⟨e, hstatus⟩
  · have hboth : (of list).lists c' = true ↔ (of list).lists c = true := by
      rw [hlists c hc, hlists c' hc', hvalue]
    exact statusOf_eq_of_lists_eq (Bool.eq_iff_iff.mpr hboth)
  · have hboth : (of list').lists c = true ↔ (of list).lists c = true := by
      rw [lists_of_iff hserials, lists_of_iff hserials', hsame]
    exact h.statusOf_eq_statusOf h' hcounts (Bool.eq_iff_iff.mpr hboth)

end Crl

/-- **Serial numbers compare by value.** Their normal forms do, and so a CRL that is read of a file,
PEM or not, finds a certificate exactly if a number on its list has the value of its own. -/
theorem Crl.finds_by_value :
    Serial.ComparesByValue Serial.normalize ∧
      ∀ {content der : Bytes} {list : X509.RevocationList}, inFile content = .ok der →
        X509.RevocationList.read? der = some list → [] ∉ list.serials →
          ∃ crl, parse content = .ok crl ∧ crl.FindsByValue list := by
  refine ⟨⟨fun a b ha hb => Serial.normalize_eq_normalize_iff ha hb, Serial.normalize_normalize,
    fun a ha => mt Serial.normalize_eq_nil_iff.mp ha, fun n a ha => Serial.normalize_padded n ha,
    Serial.exists_zeros_append⟩, fun {content der list} hfile hread hserials => ?_⟩
  have hof : ofDer der = .ok (of list) := ofDer_eq_ok_iff.mpr ⟨list, hread, rfl⟩
  exact ⟨of list, bind_eq_ok_iff.mpr ⟨der, hfile, hof⟩, findsByValue_of hserials⟩

namespace CrlSample

open AnswerSample

/-- A list of three numbers, five, zero and 32769, of which two have zeros in front. -/
def padded : List Bytes := [[0, 0, 5], [0], [0, 128, 1]]

/-- What a CRL with them states. -/
def paddedStated : Bytes :=
  stated [encodeSequence (padded.map fun serial => encodeSequence
    [Der.encode Der.tagInteger serial, Der.encode Der.tagUtcTime (Bytes.ofText "240101000000Z")])]

def paddedSignature : Bytes :=
  signature 0xe8f161f8abb4aa683c85271634716be6d56d75c6e187f6e94a188fe639a15412
    0x79900da5ec4867b3cfe81a440f9efc7124dcf34bea72d262e069d2f04b70e54b

/-- The CRL, as it is kept. -/
def paddedKept : Crl :=
  kept [[5], [0], [128, 1]] (.within .complete) paddedStated paddedSignature

/-- A certificate of the root with a number in some octets. -/
def numbered (serial : Bytes) : Certificate := { alice with serial }

end CrlSample

open AnswerSample CrlSample in
theorem Crl.found_behind_zeros :
    (X509.RevocationList.read? (CrlSample.octets paddedStated paddedSignature)).map (·.serials) =
        some padded ∧
      parse (CrlSample.octets paddedStated paddedSignature) = .ok paddedKept ∧
      paddedKept.statusOf (numbered [5]) root now = .ok .revoked ∧
      paddedKept.statusOf (numbered [0, 0, 0, 0]) root now = .ok .revoked ∧
      paddedKept.statusOf (numbered [128, 1]) root now = .ok .revoked ∧
      paddedKept.statusOf (numbered [0, 128]) root now = .ok .valid := by
  have hread : (X509.RevocationList.read?
      (CrlSample.octets paddedStated paddedSignature)).map (·.serials) = some padded := by
    decide +kernel
  have hkept : parse (CrlSample.octets paddedStated paddedSignature) = .ok paddedKept := by
    decide +kernel
  obtain ⟨list, hlist, hserials⟩ := Option.map_eq_some_iff.mp hread
  have hwritten : [] ∉ list.serials := by rw [hserials]; decide
  have hfile : inFile (CrlSample.octets paddedStated paddedSignature) = .ok _ := rfl
  obtain ⟨crl, hparse, hfinds⟩ := finds_by_value.2 hfile hlist hwritten
  obtain rfl : crl = paddedKept := Except.ok.inj (hparse.symm.trans hkept)
  have hreliable : paddedKept.Reliable root now :=
    ⟨⟨.complete, rfl, rfl⟩, by decide +kernel, fun next hnext => by cases hnext; decide⟩
  have hhas (number : Nat) : list.Has number ↔ ∃ serial ∈ padded, serial.toNat = number := by
    rw [X509.RevocationList.Has, hserials]
  have hrevoked (serial : Bytes) (hserial : serial ≠ [])
      (h : ∃ listed ∈ padded, listed.toNat = serial.toNat) :
      paddedKept.statusOf (numbered serial) root now = .ok .revoked :=
    (hfinds.revoked (numbered serial) root now hserial).mpr ⟨hreliable, (hhas _).mpr h⟩
  have hvalid : paddedKept.statusOf (numbered [0, 128]) root now = .ok .valid :=
    (hfinds.valid (numbered [0, 128]) root now (by decide)).mpr
      ⟨hreliable, mt (hhas _).mp (by decide), (countsAll_iff rfl).mpr rfl⟩
  exact ⟨hread, hkept, hrevoked [5] (by decide) (by decide),
    hrevoked [0, 0, 0, 0] (by decide) (by decide), hrevoked [128, 1] (by decide) (by decide),
    hvalid⟩

end PeerTrust
