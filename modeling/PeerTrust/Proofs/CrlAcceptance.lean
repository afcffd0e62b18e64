import PeerTrust.Proofs.Results
import PeerTrust.Revocation.CrlCache
import PeerTrust.Revocation.LocalCrls

/-!
# When a CRL says something of a certificate

* `Crl.Scope.Includes` says which certificates a scope is about: `Crl.Scope.includes_iff`;
* `Crl.Attests` is what has to hold of a CRL that is believed: `Crl.attests_iff`;
* `LocalCrls.attests_of_check` and `CrlCache.attests_of_statusAt`: neither CRLs at hand nor one from
  a distribution point say anything by less; for the latter, `CrlCache.statusAt_eq_ok_iff`;
* `LocalCrls.mem_load_iff`: which CRLs are at hand.
-/

namespace PeerTrust

namespace Crl

variable {crl : Crl} {c issuer : Certificate} {now : Nat} {s : CrlStatus}

/-- A scope is about a certificate: about certificates of its kind, and of one of its distribution
points if it names any. -/
structure Scope.Includes (scope : Scope) (c : Certificate) : Prop where
  keys : scope.onlyAttributeCertificates = false
  users : scope.onlyUserCertificates = true → c.isCa = false
  authorities : scope.onlyCaCertificates = true → c.isCa = true
  points : scope.distributionPoints = [] ∨ ∃ url ∈ c.crlUrls, url ∈ scope.distributionPoints

theorem Scope.includes_iff {scope : Scope} : scope.includes c = true ↔ scope.Includes c := by
  have husers : (!(scope.onlyUserCertificates && c.isCa)) = true ↔
      (scope.onlyUserCertificates = true → c.isCa = false) := by
    cases scope.onlyUserCertificates <;> simp
  have hauthorities : (!(scope.onlyCaCertificates && !c.isCa)) = true ↔
      (scope.onlyCaCertificates = true → c.isCa = true) := by
    cases scope.onlyCaCertificates <;> simp
  have hpoints : (scope.distributionPoints.isEmpty ||
      c.crlUrls.any scope.distributionPoints.contains) = true ↔
      scope.distributionPoints = [] ∨ ∃ url ∈ c.crlUrls, url ∈ scope.distributionPoints := by
    simp
  unfold Scope.includes
  simp only [Bool.and_eq_true, Bool.not_eq_eq_eq_not, Bool.not_true, husers, hauthorities, hpoints]
  constructor
  · intro h
    obtain ⟨⟨⟨hkeys, husers⟩, hauthorities⟩, hpoints⟩ := h
    exact ⟨hkeys, husers, hauthorities, hpoints⟩
  · intro h
    obtain ⟨hkeys, husers, hauthorities, hpoints⟩ := h
    exact ⟨⟨⟨hkeys, husers⟩, hauthorities⟩, hpoints⟩

theorem Scope.isServedFrom_iff {scope : Scope} {url : String} :
    scope.isServedFrom url = true ↔
      scope.distributionPoints = [] ∨ url ∈ scope.distributionPoints := by
  simp [Scope.isServedFrom]

theorem scope_unique {scope scope' : Scope} (h : crl.coverage = .within scope)
    (h' : crl.coverage = .within scope') : scope = scope' :=
  Coverage.within.inj (h.symm.trans h')

/-- A CRL may be found at a location: its scope is known, and names the location if it names any. -/
def ServedFrom (crl : Crl) (url : String) : Prop :=
  ∃ scope, crl.coverage = .within scope ∧
    (scope.distributionPoints = [] ∨ url ∈ scope.distributionPoints)

/-- A CRL is the word of the issuer of a certificate and says that it is revoked, or that it is
not. -/
structure Attests (crl : Crl) (c issuer : Certificate) (now : Nat) (s : CrlStatus) : Prop where
  named : crl.issuer = c.issuer
  signed : issuer.publicKey.verify crl.signatureAlgorithm crl.signed crl.signature = .ok ()
  current : ∀ next, crl.nextUpdate = some next → now ≤ next
  /-- Its scope is known, includes the certificate, and is of direct CRLs. That a certificate is not
  listed counts only where all reasons would have been. -/
  scope : ∃ scope, crl.coverage = .within scope ∧ scope.Includes c ∧ scope.indirect = false ∧
    (s = .valid → scope.onlySomeReasons = false)
  listed : Serial.normalize c.serial ∈ crl.revoked ↔ s = .revoked

theorem isStale_eq_false_iff :
    crl.isStale now = false ↔ ∀ next, crl.nextUpdate = some next → now ≤ next := by
  unfold isStale
  cases crl.nextUpdate with
  | none => simp
  | some next => simp

theorem lists_iff : crl.lists c = true ↔ Serial.normalize c.serial ∈ crl.revoked := by
  simp [lists]

/-- What it says of a certificate depends on whether it lists it only. -/
theorem statusOf_eq_of_lists_eq {c' : Certificate} (h : crl.lists c = crl.lists c') :
    crl.statusOf c issuer now = crl.statusOf c' issuer now := by
  unfold statusOf
  rw [h]

/-- What a CRL says, with the checks that it passed. -/
theorem statusOf_eq_ok_iff : crl.statusOf c issuer now = .ok s ↔
    ∃ scope, crl.coverage = .within scope ∧
      issuer.publicKey.verify crl.signatureAlgorithm crl.signed crl.signature = .ok () ∧
      crl.isStale now = false ∧ scope.indirect = false ∧
      (s = .valid → scope.onlySomeReasons = false) ∧ (crl.lists c = true ↔ s = .revoked) := by
  unfold statusOf
  cases crl.coverage with
  | unusable x => simp
  | within scope =>
    cases issuer.publicKey.verify crl.signatureAlgorithm crl.signed crl.signature with
    | error e => simp
    | ok _ =>
      cases hstale : crl.isStale now with
      | true => simp
      | false =>
        cases hindirect : scope.indirect with
        | true => simp [hindirect]
        | false =>
          cases hlists : crl.lists c <;> cases hsome : scope.onlySomeReasons <;> cases s <;>
            simp [hindirect, hsome]

/-- **A CRL that covers a certificate says exactly what it attests.** -/
theorem attests_iff : crl.Attests c issuer now s ↔
    crl.covers c = true ∧ crl.statusOf c issuer now = .ok s := by
  rw [statusOf_eq_ok_iff]
  constructor
  · intro h
    obtain ⟨hnamed, hsigned, hcurrent, hscope, hlisted⟩ := h
    obtain ⟨scope, hwithin, hincludes, hindirect, hreasons⟩ := hscope
    refine ⟨?_, scope, hwithin, hsigned, isStale_eq_false_iff.mpr hcurrent, hindirect, hreasons,
      lists_iff.trans hlisted⟩
    simp [covers, hnamed, hwithin, Scope.includes_iff.mpr hincludes]
  · intro h
    obtain ⟨hcovers, scope, hwithin, hsigned, hfresh, hindirect, hreasons, hlisted⟩ := h
    simp only [covers, hwithin, Bool.and_eq_true, decide_eq_true_eq] at hcovers
    exact ⟨hcovers.1, hsigned, isStale_eq_false_iff.mp hfresh,
      ⟨scope, hwithin, Scope.includes_iff.mp hcovers.2, hindirect, hreasons⟩,
      lists_iff.symm.trans hlisted⟩

end Crl

namespace LocalCrls

/-- A status is the word of one of several. -/
theorem mem_of_verdict {answers : List (Except CrlError CrlStatus)} {s : CrlStatus}
    (h : verdict answers = some (.ok s)) : .ok s ∈ answers := by
  unfold verdict at h
  split at h
  · rename_i hrevoked
    cases h
    obtain ⟨answer, hmem, htest⟩ := List.any_eq_true.mp hrevoked
    split at htest
    · exact hmem
    · cases htest
  · split at h
    · rename_i hvalid
      cases h
      obtain ⟨answer, hmem, htest⟩ := List.any_eq_true.mp hvalid
      split at htest
      · exact hmem
      · cases htest
    · exact List.mem_of_getLast? h

theorem attests_of_check {crls : LocalCrls} {c issuer : Certificate} {now : Nat} {s : CrlStatus}
    (h : crls.check c issuer now = some (.ok s)) : ∃ crl ∈ crls, crl.Attests c issuer now s := by
  obtain ⟨crl, hmem, hstatus⟩ := List.mem_map.mp (mem_of_verdict h)
  obtain ⟨hcrl, hcovers⟩ := List.mem_filter.mp hmem
  exact ⟨crl, hcrl, Crl.attests_iff.mpr ⟨hcovers, hstatus⟩⟩

/-- Octets that are given at the start: the content of one of some files, or of a trust store. -/
def Given (files : Files) (paths : List String) (ders : List Bytes) (content : Bytes) : Prop :=
  (∃ path ∈ paths, files path = .ok content) ∨ content ∈ ders

theorem loadFile_eq_ok_iff {files : Files} {path : String} {crl : Crl} :
    loadFile files path = .ok crl ↔
      ∃ content, files path = .ok content ∧ Crl.parse content = .ok crl := by
  unfold loadFile
  cases files path with
  | error e => simp
  | ok content => cases hparse : Crl.parse content <;> simp [hparse]

section Load

variable {files : Files} {paths : List String} {ders : List Bytes} {crls : LocalCrls} {crl : Crl}

theorem load_eq_ok_iff : load files paths ders = .ok crls ↔
    ∃ fromFiles fromStore, paths.mapM (loadFile files) = .ok fromFiles ∧
      ders.mapM Crl.parse = .ok fromStore ∧ fromFiles ++ fromStore = crls := by
  simp only [load, bind_eq_ok_iff, pure, Except.pure, Except.ok.injEq, exists_and_left]

/-- **The CRLs at hand are those that are read of what was given.** -/
theorem mem_load_iff (h : load files paths ders = .ok crls) :
    crl ∈ crls ↔ ∃ content, Given files paths ders content ∧ Crl.parse content = .ok crl := by
  obtain ⟨fromFiles, fromStore, hfiles, hstore, rfl⟩ := load_eq_ok_iff.mp h
  rw [List.mem_append, mem_mapM_iff hfiles, mem_mapM_iff hstore]
  constructor
  · intro h
    rcases h with ⟨path, hpath, hread⟩ | ⟨content, hcontent, hparse⟩
    · obtain ⟨content, hcontent, hparse⟩ := loadFile_eq_ok_iff.mp hread
      exact ⟨content, .inl ⟨path, hpath, hcontent⟩, hparse⟩
    · exact ⟨content, .inr hcontent, hparse⟩
  · intro h
    obtain ⟨content, ⟨path, hpath, hcontent⟩ | hcontent, hparse⟩ := h
    · exact .inl ⟨path, hpath, loadFile_eq_ok_iff.mpr ⟨content, hcontent, hparse⟩⟩
    · exact .inr ⟨content, hcontent, hparse⟩

theorem given_of_load (h : load files paths ders = .ok crls) (hcrl : crl ∈ crls) :
    ∃ content, Given files paths ders content ∧ Crl.parse content = .ok crl :=
  (mem_load_iff h).mp hcrl

/-- One is at hand for each of them. -/
theorem exists_of_given (h : load files paths ders = .ok crls) {content : Bytes}
    (hgiven : Given files paths ders content) : ∃ crl ∈ crls, Crl.parse content = .ok crl := by
  obtain ⟨fromFiles, fromStore, hfiles, hstore, rfl⟩ := load_eq_ok_iff.mp h
  rcases hgiven with ⟨path, hpath, hcontent⟩ | hcontent
  · obtain ⟨crl, hcrl, hread⟩ := exists_of_mapM hfiles hpath
    obtain ⟨content', hcontent', hparse⟩ := loadFile_eq_ok_iff.mp hread
    obtain rfl : content = content' := Except.ok.inj (hcontent.symm.trans hcontent')
    exact ⟨crl, List.mem_append_left fromStore hcrl, hparse⟩
  · obtain ⟨crl, hcrl, hparse⟩ := exists_of_mapM hstore hcontent
    exact ⟨crl, List.mem_append_right fromFiles hcrl, hparse⟩

theorem length_load (h : load files paths ders = .ok crls) :
    crls.length = paths.length + ders.length := by
  obtain ⟨fromFiles, fromStore, hfiles, hstore, rfl⟩ := load_eq_ok_iff.mp h
  rw [List.length_append, length_of_mapM hfiles, length_of_mapM hstore]

end Load

end LocalCrls

namespace CrlCache

variable {crl : Crl} {url : String} {c issuer : Certificate} {now : Nat} {s : CrlStatus}

theorem ensureApplies_eq_ok_iff : ensureApplies crl url c = .ok () ↔ crl.issuer = c.issuer ∧
    ∀ scope, crl.coverage = .within scope → scope.isServedFrom url = true ∧
      scope.includes c = true := by
  unfold ensureApplies
  by_cases hissuer : crl.issuer = c.issuer
  · cases crl.coverage with
    | unusable x => simp [hissuer]
    | within scope =>
      cases scope.isServedFrom url <;> cases scope.includes c <;> simp [hissuer]
  · simp [hissuer]

/-- **What is found at a location says what it attests, and may be found there.** -/
theorem statusAt_eq_ok_iff : statusAt crl url c issuer now = .ok s ↔
    crl.ServedFrom url ∧ crl.Attests c issuer now s := by
  unfold statusAt
  rw [bind_eq_ok_iff, Crl.attests_iff]
  constructor
  · intro h
    obtain ⟨_, happlies, hstatus⟩ := h
    obtain ⟨hissuer, hscope⟩ := ensureApplies_eq_ok_iff.mp happlies
    obtain ⟨scope, hwithin, -⟩ := Crl.statusOf_eq_ok_iff.mp hstatus
    obtain ⟨hserved, hincludes⟩ := hscope scope hwithin
    refine ⟨⟨scope, hwithin, Crl.Scope.isServedFrom_iff.mp hserved⟩, ?_, hstatus⟩
    simp [Crl.covers, hissuer, hwithin, hincludes]
  · intro h
    obtain ⟨⟨scope, hwithin, hserved⟩, hcovers, hstatus⟩ := h
    simp only [Crl.covers, hwithin, Bool.and_eq_true, decide_eq_true_eq] at hcovers
    refine ⟨(), ensureApplies_eq_ok_iff.mpr ⟨hcovers.1, fun scope' hwithin' => ?_⟩, hstatus⟩
    obtain rfl := Crl.scope_unique hwithin hwithin'
    exact ⟨Crl.Scope.isServedFrom_iff.mpr hserved, hcovers.2⟩

theorem attests_of_statusAt (h : statusAt crl url c issuer now = .ok s) :
    crl.Attests c issuer now s :=
  (statusAt_eq_ok_iff.mp h).2

end CrlCache

end PeerTrust
