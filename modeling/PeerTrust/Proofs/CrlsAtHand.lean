import PeerTrust.Proofs.Evidence
import PeerTrust.Proofs.Serials

/-!
# What CRLs at hand say together

* `Crl.Relevant`, `Crl.Usable`, `Crl.Names` and `Crl.CountsAll` say of one CRL what matters of it:
  `Crl.attests_revoked_iff` and `Crl.attests_valid_iff` put what it attests together of them;
  `Crl.of` is what is kept of a CRL that is read, and `Crl.names_of_iff` says which numbers it has;
* `LocalCrls.verdict_eq` reads what several say as membership;
* `LocalCrls.check_eq_revoked_iff`, `check_eq_valid_iff`, `check_eq_none_iff` and
  `check_eq_error_iff`: a revocation counts before a statement that the certificate is valid, and
  that before an error, of which the last one is told; `LocalCrls.exists_error_of_unattested`: there
  is one then;
* `LocalCrls.Meaning` puts it together, and `LocalCrls.check_means` proves it. Order and repetition
  of the CRLs do not matter, and one more CRL does not undo a revocation.
-/

namespace PeerTrust

/-- The last element with a property. -/
def IsLast {α : Type} (p : α → Prop) (xs : List α) (x : α) : Prop :=
  ∃ before after, xs = before ++ x :: after ∧ p x ∧ ∀ y ∈ after, ¬ p y

theorem getLast?_filter_eq_some_iff_isLast {α : Type} {p : α → Prop} {test : α → Bool}
    {xs : List α} {x : α} (h : ∀ y, test y = true ↔ p y) :
    (xs.filter test).getLast? = some x ↔ IsLast p xs x := by
  have hreverse : (xs.filter test).getLast? = xs.reverse.find? test := by
    rw [List.getLast?_eq_head?_reverse, ← List.filter_reverse, List.head?_filter]
  rw [hreverse, List.find?_eq_some_iff_append]
  constructor
  · intro hx
    obtain ⟨htest, after, before, hxs, hafter⟩ := hx
    refine ⟨before.reverse, after.reverse, ?_, (h x).mp htest, fun y hy hp => ?_⟩
    · simpa using congrArg List.reverse hxs
    · simpa [(h y).mpr hp] using hafter y (List.mem_reverse.mp hy)
  · intro hx
    obtain ⟨before, after, rfl, hp, hafter⟩ := hx
    refine ⟨(h x).mpr hp, after.reverse, before.reverse, by simp, fun y hy => ?_⟩
    have : test y ≠ true := fun ht => hafter y (List.mem_reverse.mp hy) ((h y).mp ht)
    simpa using this

/-! ## 1. One CRL -/

namespace Crl

variable {crl : Crl} {c issuer : Certificate} {now : Nat}

/-- A CRL of the issuer of a certificate is about it, or nobody can tell what it is about. -/
structure Relevant (crl : Crl) (c : Certificate) : Prop where
  named : crl.issuer = c.issuer
  included : ∀ scope, crl.coverage = .within scope → scope.Includes c

/-- It can be relied on at a time, as the word of an issuer. -/
structure Usable (crl : Crl) (c issuer : Certificate) (now : Nat) : Prop
    extends crl.Relevant c where
  direct : ∃ scope, crl.coverage = .within scope ∧ scope.indirect = false
  signed : issuer.publicKey.verify crl.signatureAlgorithm crl.signed crl.signature = .ok ()
  current : ∀ next, crl.nextUpdate = some next → now ≤ next

/-- It has the number of a certificate on its list, in whatever octets. -/
def Names (crl : Crl) (c : Certificate) : Prop :=
  ∃ serial ∈ crl.revoked, serial.toNat = c.serial.toNat

/-- It is not limited to some reasons. -/
def CountsAll (crl : Crl) : Prop :=
  ∀ scope, crl.coverage = .within scope → scope.onlySomeReasons = false

/-- The serial numbers that it keeps are normal forms. -/
def IsNormal (crl : Crl) : Prop :=
  ∀ serial ∈ crl.revoked, ∃ written, written ≠ [] ∧ serial = Serial.normalize written

/-- What is kept of a CRL that is read. -/
def of (list : X509.RevocationList) : Crl where
  issuer := list.issuer.raw
  nextUpdate := list.nextUpdate.map Int.toNat
  revoked := list.serials.map Serial.normalize
  coverage := coverageFrom .complete list.extensions
  signed := list.signed
  signatureAlgorithm := list.signatureAlgorithm
  signature := list.signature

theorem ofDer_eq_ok_iff {der : Bytes} :
    ofDer der = .ok crl ↔ ∃ list, X509.RevocationList.read? der = some list ∧ of list = crl := by
  unfold ofDer
  cases X509.RevocationList.read? der with
  | none => simp
  | some list =>
    rw [Except.ok.injEq]
    simp only [Option.some.injEq, exists_eq_left']
    rfl

/-- The serial numbers that it keeps are normal forms. -/
theorem isNormal_of {list : X509.RevocationList} (hserials : [] ∉ list.serials) :
    (of list).IsNormal := by
  intro serial hserial
  obtain ⟨written, hwritten, rfl⟩ := List.mem_map.mp hserial
  exact ⟨written, fun h => hserials (h ▸ hwritten), rfl⟩

/-- They are those of the numbers on its list. -/
theorem names_of_iff {list : X509.RevocationList} :
    (of list).Names c ↔ ∃ serial ∈ list.serials, serial.toNat = c.serial.toNat := by
  simp [Names, of, Serial.toNat_normalize]

theorem relevant_iff : crl.covers c = true ↔ crl.Relevant c := by
  unfold covers
  rw [Bool.and_eq_true, decide_eq_true_eq]
  cases hcoverage : crl.coverage with
  | unusable x =>
    constructor
    · intro h
      exact ⟨h.1, fun scope hscope => by rw [hcoverage] at hscope; cases hscope⟩
    · intro h
      exact ⟨h.named, rfl⟩
  | within scope =>
    rw [Scope.includes_iff]
    constructor
    · intro h
      refine ⟨h.1, fun scope' hscope' => ?_⟩
      obtain rfl := scope_unique hcoverage hscope'
      exact h.2
    · intro h
      exact ⟨h.named, h.included scope hcoverage⟩

/-- The normal form of a number is on the list exactly if the number is. -/
theorem names_iff (hserial : c.serial ≠ []) (hnormal : crl.IsNormal) :
    Serial.normalize c.serial ∈ crl.revoked ↔ crl.Names c := by
  constructor
  · intro h
    exact ⟨_, h, Serial.toNat_normalize _⟩
  · intro h
    obtain ⟨serial, hmem, hvalue⟩ := h
    obtain ⟨written, hwritten, rfl⟩ := hnormal serial hmem
    have heq : Serial.normalize written = Serial.normalize c.serial := by
      rw [Serial.normalize_eq_normalize_iff hwritten hserial, ← hvalue, Serial.toNat_normalize]
    exact heq ▸ hmem

/-- **A CRL attests a revocation exactly if it can be used and lists the certificate.** -/
theorem attests_revoked_iff : crl.Attests c issuer now .revoked ↔
    crl.Usable c issuer now ∧ Serial.normalize c.serial ∈ crl.revoked := by
  constructor
  · intro h
    obtain ⟨scope, hwithin, hincludes, hdirect, -⟩ := h.scope
    refine ⟨⟨⟨h.named, fun scope' hwithin' => ?_⟩, ⟨scope, hwithin, hdirect⟩, h.signed,
      h.current⟩, h.listed.mpr rfl⟩
    obtain rfl := scope_unique hwithin hwithin'
    exact hincludes
  · intro h
    obtain ⟨husable, hlisted⟩ := h
    obtain ⟨scope, hwithin, hdirect⟩ := husable.direct
    exact ⟨husable.named, husable.signed, husable.current,
      ⟨scope, hwithin, husable.included scope hwithin, hdirect, fun h => nomatch h⟩,
      fun _ => rfl, fun _ => hlisted⟩

/-- **It attests that a certificate is valid exactly if it can be used, does not list it, and would
list it whatever the reason.** -/
theorem attests_valid_iff : crl.Attests c issuer now .valid ↔
    crl.Usable c issuer now ∧ Serial.normalize c.serial ∉ crl.revoked ∧ crl.CountsAll := by
  constructor
  · intro h
    obtain ⟨scope, hwithin, hincludes, hdirect, hreasons⟩ := h.scope
    refine ⟨⟨⟨h.named, fun scope' hwithin' => ?_⟩, ⟨scope, hwithin, hdirect⟩, h.signed, h.current⟩,
      fun hlisted => ?_, fun scope' hwithin' => ?_⟩
    · exact scope_unique hwithin hwithin' ▸ hincludes
    · exact nomatch h.listed.mp hlisted
    · exact scope_unique hwithin hwithin' ▸ hreasons rfl
  · intro h
    obtain ⟨husable, hlisted, hreasons⟩ := h
    obtain ⟨scope, hwithin, hdirect⟩ := husable.direct
    exact ⟨husable.named, husable.signed, husable.current,
      ⟨scope, hwithin, husable.included scope hwithin, hdirect, fun _ => hreasons scope hwithin⟩,
      fun h => absurd h hlisted, fun h => nomatch h⟩

/-- What it attests, by the numbers that it has. -/
theorem attests_revoked_iff_names (hserial : c.serial ≠ []) (hnormal : crl.IsNormal) :
    crl.Attests c issuer now .revoked ↔ crl.Usable c issuer now ∧ crl.Names c := by
  rw [attests_revoked_iff, names_iff hserial hnormal]

theorem attests_valid_iff_names (hserial : c.serial ≠ []) (hnormal : crl.IsNormal) :
    crl.Attests c issuer now .valid ↔
      crl.Usable c issuer now ∧ ¬ crl.Names c ∧ crl.CountsAll := by
  rw [attests_valid_iff, names_iff hserial hnormal]

end Crl

/-! ## 2. Several CRLs -/

namespace LocalCrls

variable {crls crls' : LocalCrls} {c issuer : Certificate} {now : Nat}

/-- What several say, by what is among it. -/
theorem verdict_eq (answers : List (Except CrlError CrlStatus)) : verdict answers =
    if .ok .revoked ∈ answers then some (.ok .revoked)
    else if .ok .valid ∈ answers then some (.ok .valid)
    else answers.getLast? := by
  have hany {test : Except CrlError CrlStatus → Bool} {answer : Except CrlError CrlStatus}
      (h : ∀ a, test a = true ↔ a = answer) : answers.any test = true ↔ answer ∈ answers := by
    simp [List.any_eq_true, h]
  unfold verdict
  refine if_congr (hany fun a => ?_) rfl (if_congr (hany fun a => ?_) rfl rfl)
  · rcases a with e | _ | _ <;> simp
  · rcases a with e | _ | _ <;> simp

/-- A CRL covers a certificate and attests a status of it: that is an answer. -/
theorem mem_answers_iff {s : CrlStatus} :
    .ok s ∈ (crls.filter (·.covers c)).map (·.statusOf c issuer now) ↔
      ∃ crl ∈ crls, crl.Attests c issuer now s := by
  simp only [List.mem_map, List.mem_filter, Crl.attests_iff, and_assoc]

/-- **A revocation by one CRL counts, whatever the others say.** -/
theorem check_eq_revoked_iff : crls.check c issuer now = some (.ok .revoked) ↔
    ∃ crl ∈ crls, crl.Attests c issuer now .revoked := by
  unfold check
  rw [verdict_eq, ← mem_answers_iff]
  split
  · rename_i hrevoked
    exact iff_of_true rfl hrevoked
  · rename_i hrevoked
    refine iff_of_false (fun h => ?_) hrevoked
    split at h
    · cases h
    · exact hrevoked (List.mem_of_getLast? h)

/-- **That a certificate is valid counts unless there is a revocation.** -/
theorem check_eq_valid_iff : crls.check c issuer now = some (.ok .valid) ↔
    (¬ ∃ crl ∈ crls, crl.Attests c issuer now .revoked) ∧
      ∃ crl ∈ crls, crl.Attests c issuer now .valid := by
  unfold check
  rw [verdict_eq, ← mem_answers_iff, ← mem_answers_iff]
  split
  · rename_i hrevoked
    exact iff_of_false (fun h => nomatch h) fun h => h.1 hrevoked
  · rename_i hrevoked
    split
    · rename_i hvalid
      exact iff_of_true rfl ⟨hrevoked, hvalid⟩
    · rename_i hvalid
      exact iff_of_false (fun h => hvalid (List.mem_of_getLast? h)) fun h => hvalid h.2

/-- **Nothing is said exactly if no CRL is relevant.** -/
theorem check_eq_none_iff : crls.check c issuer now = none ↔ ∀ crl ∈ crls, ¬ crl.Relevant c := by
  have hempty : (crls.filter (·.covers c)).map (·.statusOf c issuer now) = [] ↔
      ∀ crl ∈ crls, ¬ crl.Relevant c := by
    simp [← Crl.relevant_iff]
  unfold check
  rw [verdict_eq, ← hempty]
  split
  · rename_i hrevoked
    exact iff_of_false (fun h => nomatch h) (List.ne_nil_of_mem hrevoked)
  · split
    · rename_i hvalid
      exact iff_of_false (fun h => nomatch h) (List.ne_nil_of_mem hvalid)
    · exact List.getLast?_eq_none_iff

/-- **An error is told where nothing is attested, and it is that of the last relevant CRL.** -/
theorem check_eq_error_iff {e : CrlError} : crls.check c issuer now = some (.error e) ↔
    (∀ s, ¬ ∃ crl ∈ crls, crl.Attests c issuer now s) ∧
      ∃ crl, IsLast (·.Relevant c) crls crl ∧ crl.statusOf c issuer now = .error e := by
  have hlast : ((crls.filter (·.covers c)).map (·.statusOf c issuer now)).getLast? =
      some (.error e) ↔
        ∃ crl, IsLast (·.Relevant c) crls crl ∧ crl.statusOf c issuer now = .error e := by
    rw [List.getLast?_map, Option.map_eq_some_iff]
    simp only [getLast?_filter_eq_some_iff_isLast (fun _ => Crl.relevant_iff)]
  unfold check
  rw [verdict_eq]
  simp only [← mem_answers_iff]
  split
  · rename_i hrevoked
    exact iff_of_false (fun h => nomatch h) fun h => h.1 .revoked hrevoked
  · rename_i hrevoked
    split
    · rename_i hvalid
      exact iff_of_false (fun h => nomatch h) fun h => h.1 .valid hvalid
    · rename_i hvalid
      rw [hlast]
      refine (and_iff_right fun s => ?_).symm
      cases s with
      | valid => exact hvalid
      | revoked => exact hrevoked

/-- If some CRL is relevant and none attests anything, there is an error to be told. -/
theorem exists_error_of_unattested (hrelevant : ∃ crl ∈ crls, crl.Relevant c)
    (hnone : ∀ s, ¬ ∃ crl ∈ crls, crl.Attests c issuer now s) :
    ∃ crl e, IsLast (·.Relevant c) crls crl ∧ crl.statusOf c issuer now = .error e ∧
      crls.check c issuer now = some (.error e) := by
  cases hcheck : crls.check c issuer now with
  | none =>
    obtain ⟨crl, hcrl, h⟩ := hrelevant
    exact absurd h (check_eq_none_iff.mp hcheck crl hcrl)
  | some answer =>
    cases answer with
    | ok s => exact absurd (attests_of_check hcheck) (hnone s)
    | error e =>
      obtain ⟨-, crl, hlast, hstatus⟩ := check_eq_error_iff.mp hcheck
      exact ⟨crl, e, hlast, hstatus, rfl⟩

/-- Which of a status, an error and nothing results depends on what CRLs there are only, in whatever
order and however often. -/
theorem check_congr (h : ∀ crl, crl ∈ crls ↔ crl ∈ crls') :
    (crls.check c issuer now).map Except.toOption =
      (crls'.check c issuer now).map Except.toOption := by
  have hnone : crls.check c issuer now = none ↔ crls'.check c issuer now = none := by
    simp only [check_eq_none_iff, h]
  have hstatus (s : CrlStatus) : crls.check c issuer now = some (.ok s) ↔
      crls'.check c issuer now = some (.ok s) := by
    cases s <;> simp only [check_eq_revoked_iff, check_eq_valid_iff, h]
  cases hcheck : crls.check c issuer now with
  | none => rw [hnone.mp hcheck]
  | some answer =>
    cases answer with
    | ok s => rw [(hstatus s).mp hcheck]
    | error e =>
      -- the others do not say nothing, nor do they state a status: that leaves an error
      cases hcheck' : crls'.check c issuer now with
      | none => exact absurd (hnone.mpr hcheck') (by simp [hcheck])
      | some answer' =>
        cases answer' with
        | ok s => exact absurd ((hstatus s).mpr hcheck') (by simp [hcheck])
        | error e' => rfl

/-! ## 3. What they mean -/

variable (crls c issuer now) in
/-- What several CRLs say of a certificate, whatever their order. -/
structure Meaning : Prop where
  revoked : crls.check c issuer now = some (.ok .revoked) ↔
    ∃ crl ∈ crls, crl.Usable c issuer now ∧ crl.Names c
  valid : crls.check c issuer now = some (.ok .valid) ↔
    (∀ crl ∈ crls, crl.Usable c issuer now → ¬ crl.Names c) ∧
      ∃ crl ∈ crls, crl.Usable c issuer now ∧ crl.CountsAll
  nothing : crls.check c issuer now = none ↔ ∀ crl ∈ crls, ¬ crl.Relevant c
  /-- Otherwise the last relevant CRL is unusable or limited to some reasons, and its error is
  told. -/
  failed : (∃ crl ∈ crls, crl.Relevant c) →
    (∀ crl ∈ crls, crl.Usable c issuer now → ¬ crl.Names c ∧ ¬ crl.CountsAll) →
      ∃ crl e, IsLast (·.Relevant c) crls crl ∧ crl.statusOf c issuer now = .error e ∧
        crls.check c issuer now = some (.error e)
  /-- The same CRLs in another order, or more often, say the same; only the error may differ. -/
  unordered : ∀ crls' : LocalCrls, (∀ crl, crl ∈ crls ↔ crl ∈ crls') →
    (crls.check c issuer now).map Except.toOption = (crls'.check c issuer now).map Except.toOption
  /-- More CRLs do not undo a revocation. -/
  kept : ∀ crls' : LocalCrls, crls ⊆ crls' → crls.check c issuer now = some (.ok .revoked) →
    crls'.check c issuer now = some (.ok .revoked)

/-- **What CRLs at hand mean.** One that can be used and lists the certificate revokes it; else one
that can be used and counts all reasons vouches for it; else the last one that matters tells why
not. -/
theorem check_means (crls : LocalCrls) (c issuer : Certificate) (now : Nat)
    (hserial : c.serial ≠ []) (hnormal : ∀ crl ∈ crls, crl.IsNormal) :
    Meaning crls c issuer now := by
  have hrevokes (crl) (hcrl : crl ∈ crls) : crl.Attests c issuer now .revoked ↔
      crl.Usable c issuer now ∧ crl.Names c :=
    Crl.attests_revoked_iff_names hserial (hnormal crl hcrl)
  have hvouches (crl) (hcrl : crl ∈ crls) : crl.Attests c issuer now .valid ↔
      crl.Usable c issuer now ∧ ¬ crl.Names c ∧ crl.CountsAll :=
    Crl.attests_valid_iff_names hserial (hnormal crl hcrl)
  have hrevoked : (∃ crl ∈ crls, crl.Attests c issuer now .revoked) ↔
      ∃ crl ∈ crls, crl.Usable c issuer now ∧ crl.Names c :=
    exists_congr fun crl => and_congr_right (hrevokes crl)
  refine ⟨check_eq_revoked_iff.trans hrevoked, ?_, check_eq_none_iff, fun hrelevant hneither => ?_,
    fun _ => check_congr, fun crls' hsubset h => ?_⟩
  · rw [check_eq_valid_iff, hrevoked]
    constructor
    · intro h
      obtain ⟨hnone, crl, hcrl, hvalid⟩ := h
      obtain ⟨husable, -, hcounts⟩ := (hvouches crl hcrl).mp hvalid
      exact ⟨fun crl hcrl husable hnames => hnone ⟨crl, hcrl, husable, hnames⟩,
        crl, hcrl, husable, hcounts⟩
    · intro h
      obtain ⟨hnone, crl, hcrl, husable, hcounts⟩ := h
      refine ⟨fun h => ?_, crl, hcrl,
        (hvouches crl hcrl).mpr ⟨husable, hnone crl hcrl husable, hcounts⟩⟩
      obtain ⟨crl', hcrl', husable', hnames⟩ := h
      exact hnone crl' hcrl' husable' hnames
  · refine exists_error_of_unattested hrelevant fun s h => ?_
    obtain ⟨crl, hcrl, hattests⟩ := h
    cases s with
    | revoked =>
      obtain ⟨husable, hnames⟩ := (hrevokes crl hcrl).mp hattests
      exact (hneither crl hcrl husable).1 hnames
    | valid =>
      obtain ⟨husable, -, hcounts⟩ := (hvouches crl hcrl).mp hattests
      exact (hneither crl hcrl husable).2 hcounts
  · obtain ⟨crl, hcrl, hattests⟩ := check_eq_revoked_iff.mp h
    exact check_eq_revoked_iff.mpr ⟨crl, hsubset hcrl, hattests⟩

end LocalCrls

/-- The sample CRL as it is read where a newer one was due long ago. -/
def Sample.overdue : Crl := { Sample.record with nextUpdate := some 0 }

open Sample in
theorem LocalCrls.check_means_of_revocation :
    LocalCrls.check [record, overdue] certificate issuer now = some (.ok .revoked) ∧
      Meaning [record, overdue] certificate issuer now := by
  have hnormal : record.IsNormal := by
    have hread : Crl.ofDer crl = .ok record := by decide +kernel
    have hserials : (X509.RevocationList.read? crl).map (·.serials) =
        some [certificate.serial] := by decide +kernel
    obtain ⟨list, hlist, hof⟩ := Crl.ofDer_eq_ok_iff.mp hread
    rw [hlist, Option.map_some, Option.some.injEq] at hserials
    rw [← hof]
    exact Crl.isNormal_of (by rw [hserials]; decide)
  refine ⟨by decide +kernel, check_means _ _ _ _ (by decide) fun crl hcrl => ?_⟩
  -- both keep the same numbers
  rcases List.mem_pair.mp hcrl with rfl | rfl
  · exact hnormal
  · exact hnormal

end PeerTrust
