import PeerTrust.Proofs.CrlScope

/-!
# CRLs at hand and CRLs from distribution points

The octets of a CRL come from a file or a trust store, or from the distribution point of a
certificate. Two functions decide whether they are about the certificate, one for either way.

* `CrlCache.ensureApplies_eq_ok_iff_covers`: for a certificate with one distribution point, the two
  agree;
* `CrlCache.check_eq_ok_iff_attests` is what a check says that downloads one CRL,
  `LocalCrls.check_eq_ok_iff_attests` what CRLs at hand say that were read of the same octets:
  either is what the CRL attests;
* `LocalCrls.GivenOnly` are files and octets that hold nothing but one CRL, and
  `LocalCrls.agrees_with_download` puts both together.
-/

namespace PeerTrust

section Agreement

variable {o : Outside} {cfg : RevocationConfig} {crl : Crl} {url : String} {parsed : Url}
  {content : Bytes} {c issuer : Certificate} {now : Nat} {s s' : CrlStatus} {cache : CrlCache}
  {calls : Calls}

/-- A CRL attests one status of a certificate. -/
theorem Crl.Attests.unique (h : crl.Attests c issuer now s) (h' : crl.Attests c issuer now s') :
    s = s' := by
  have hboth : s = .revoked ↔ s' = .revoked := h.listed.symm.trans h'.listed
  cases s <;> cases s' <;> simp at hboth ⊢

/-- What it says of a certificate depends on the serial number only, once it is about it. -/
theorem Crl.statusOf_congr {c' : Certificate} (h : c.serial = c'.serial) :
    crl.statusOf c issuer now = crl.statusOf c' issuer now :=
  statusOf_eq_of_lists_eq (by rw [lists, lists, h])

/-! ## 1. One distribution point -/

namespace CrlCache

/-- A scope that includes a certificate by its only location names that location, if it names
any. -/
theorem isServedFrom_of_includes {scope : Crl.Scope} (lone : c.crlUrls = [url])
    (h : scope.includes c = true) : scope.isServedFrom url = true := by
  have hincludes : scope.Includes c := Crl.Scope.includes_iff.mp h
  rw [Crl.Scope.isServedFrom_iff]
  rcases hincludes.points with hnone | ⟨point, hpoint, hnamed⟩
  · exact .inl hnone
  · rw [lone, List.mem_singleton] at hpoint
    exact .inr (hpoint ▸ hnamed)

/-- **A CRL that is found at the only location of a certificate applies to it exactly if it would
cover it at hand**, whatever its issuer, its scope and its extensions. -/
theorem ensureApplies_eq_ok_iff_covers (lone : c.crlUrls = [url]) :
    ensureApplies crl url c = .ok () ↔ crl.covers c = true := by
  rw [ensureApplies_eq_ok_iff, Crl.covers, Bool.and_eq_true, decide_eq_true_eq]
  refine and_congr_right fun _ => ?_
  cases hcoverage : crl.coverage with
  | unusable x => simp
  | within scope =>
    constructor
    · intro h
      exact (h scope rfl).2
    · intro h scope' hscope'
      obtain rfl := Crl.Coverage.within.inj hscope'
      exact ⟨isServedFrom_of_includes lone h, h⟩

/-- It says there what it attests. -/
theorem statusAt_eq_ok_iff_attests (lone : c.crlUrls = [url]) :
    statusAt crl url c issuer now = .ok s ↔ crl.Attests c issuer now s := by
  rw [statusAt, bind_eq_ok_iff, Crl.attests_iff, ← ensureApplies_eq_ok_iff_covers lone]
  constructor
  · rintro ⟨_, happlies, hstatus⟩
    exact ⟨happlies, hstatus⟩
  · rintro ⟨happlies, hstatus⟩
    exact ⟨(), happlies, hstatus⟩

/-- A check of a certificate with one location is that of the location. -/
theorem check_eq_checkAt (lone : c.crlUrls = [url]) :
    check o cfg c issuer now cache calls = checkAt o cfg url c issuer now cache calls := by
  rw [check, lone, checkEach]
  rcases checkAt o cfg url c issuer now cache calls with ⟨e | status, cache', after⟩
  · rfl
  · rfl

theorem live?_of_entries_nil (h : cache.entries = []) (lifetime : Nat) :
    cache.live? lifetime now url = none := by
  simp [Cache.live?, Cache.find?, h]

/-- A check that finds nothing kept says what the CRL attests that it downloads. -/
theorem check_eq_ok_iff_attests (lone : c.crlUrls = [url]) (empty : cache.entries = []) :
    (check o cfg c issuer now cache calls).1 = .ok s ↔
      ∃ crl after, download o cfg url calls = (.ok crl, after) ∧ crl.Attests c issuer now s := by
  rw [check_eq_checkAt lone, checkAt, live?_of_entries_nil empty]
  rcases hdownload : download o cfg url calls with ⟨e | crl, after⟩
  · simp
  · simp only [← statusAt_eq_ok_iff_attests lone]
    cases hstatus : statusAt crl url c issuer now with
    | error e => simp [hstatus]
    | ok status => simp [hstatus]

/-- So does one whose only location serves some octets: it says what those attest. -/
theorem check_eq_ok_iff_of_serves (lone : c.crlUrls = [url]) (empty : cache.entries = [])
    (serves : ∀ parsed, Url.parse url = .ok parsed →
      o.reply calls (.get parsed cfg.crlTimeout) = .ok content) :
    (check o cfg c issuer now cache calls).1 = .ok s ↔
      (∃ parsed, Url.parse url = .ok parsed) ∧
        ∃ crl, Crl.parse content = .ok crl ∧ crl.Attests c issuer now s := by
  simp only [check_eq_ok_iff_attests lone empty, download_eq_ok_iff]
  constructor
  · rintro ⟨crl, after, ⟨parsed, content', hparsed, hreply, hread, -⟩, hattests⟩
    obtain rfl : content = content' := Except.ok.inj ((serves parsed hparsed).symm.trans hreply)
    exact ⟨⟨parsed, hparsed⟩, crl, hread, hattests⟩
  · rintro ⟨⟨parsed, hparsed⟩, crl, hread, hattests⟩
    exact ⟨crl, _, ⟨parsed, content, hparsed, serves parsed hparsed, hread, rfl⟩, hattests⟩

end CrlCache

/-! ## 2. CRLs at hand -/

namespace LocalCrls

variable {files : Files} {paths : List String} {ders : List Bytes} {crls : LocalCrls}

/-- What CRLs at hand say that are all the same is what that one attests. -/
theorem check_eq_ok_iff_attests (h : ∀ x, x ∈ crls ↔ x = crl) :
    crls.check c issuer now = some (.ok s) ↔ crl.Attests c issuer now s := by
  have hexists (s : CrlStatus) :
      (∃ x ∈ crls, x.Attests c issuer now s) ↔ crl.Attests c issuer now s := by
    simp only [h, exists_eq_left]
  cases s with
  | revoked => rw [check_eq_revoked_iff, hexists]
  | valid =>
    rw [check_eq_valid_iff, hexists, hexists]
    constructor
    · exact fun h => h.2
    · intro hvalid
      exact ⟨fun hrevoked => (nomatch hvalid.unique hrevoked), hvalid⟩

/-- What is given at the start is some octets and nothing else, in files, in a trust store or in
both, and however often. -/
structure GivenOnly (files : Files) (paths : List String) (ders : List Bytes) (content : Bytes) :
    Prop where
  files : ∀ path ∈ paths, files path = .ok content
  store : ∀ der ∈ ders, der = content
  nonempty : paths ≠ [] ∨ ders ≠ []

theorem GivenOnly.given_iff {x : Bytes} (h : GivenOnly files paths ders content) :
    Given files paths ders x ↔ x = content := by
  constructor
  · rintro (⟨path, hpath, hread⟩ | hder)
    · exact Except.ok.inj (hread.symm.trans (h.files path hpath))
    · exact h.store x hder
  · rintro rfl
    rcases h.nonempty with hpaths | hders
    · obtain ⟨path, hpath⟩ := List.exists_mem_of_ne_nil paths hpaths
      exact .inl ⟨path, hpath, h.files path hpath⟩
    · obtain ⟨der, hder⟩ := List.exists_mem_of_ne_nil ders hders
      exact .inr (h.store der hder ▸ hder)

/-- Then what is at hand is what the octets are read as. -/
theorem GivenOnly.mem_iff (h : GivenOnly files paths ders content)
    (hload : load files paths ders = .ok crls) : crl ∈ crls ↔ Crl.parse content = .ok crl := by
  simp only [mem_load_iff hload, h.given_iff, exists_eq_left]

/-- They are loaded if they are read as a CRL. -/
theorem GivenOnly.exists_load (h : GivenOnly files paths ders content)
    (hread : Crl.parse content = .ok crl) : ∃ crls, load files paths ders = .ok crls := by
  obtain ⟨fromFiles, hfiles⟩ : ∃ crls, paths.mapM (loadFile files) = .ok crls := by
    simp only [mapM_eq_ok_iff_forall₂]
    exact exists_forall₂ fun path hpath =>
      ⟨crl, loadFile_eq_ok_iff.mpr ⟨content, h.files path hpath, hread⟩⟩
  obtain ⟨fromStore, hstore⟩ : ∃ crls, ders.mapM Crl.parse = .ok crls := by
    simp only [mapM_eq_ok_iff_forall₂]
    exact exists_forall₂ fun der hder => ⟨crl, h.store der hder ▸ hread⟩
  exact ⟨_, load_eq_ok_iff.mpr ⟨fromFiles, fromStore, hfiles, hstore, rfl⟩⟩

/-- What CRLs at hand say that were read of some octets alone. -/
theorem GivenOnly.check_eq_ok_iff (h : GivenOnly files paths ders content) :
    (∃ crls, load files paths ders = .ok crls ∧ crls.check c issuer now = some (.ok s)) ↔
      ∃ crl, Crl.parse content = .ok crl ∧ crl.Attests c issuer now s := by
  constructor
  · rintro ⟨crls, hload, hcheck⟩
    obtain ⟨crl, hcrl, hattests⟩ := attests_of_check hcheck
    exact ⟨crl, (h.mem_iff hload).mp hcrl, hattests⟩
  · rintro ⟨crl, hread, hattests⟩
    obtain ⟨crls, hload⟩ := h.exists_load hread
    have hsame (x : Crl) : x ∈ crls ↔ x = crl := by
      rw [h.mem_iff hload, hread, Except.ok.injEq, eq_comm]
    exact ⟨crls, hload, (check_eq_ok_iff_attests hsame).mpr hattests⟩

/-! ## 3. Both ways -/

/-- What a CRL says that is downloaded, and what it says at hand. -/
structure AgreesWithDownload (o : Outside) (cfg : RevocationConfig) (c issuer : Certificate)
    (now : Nat) (cache : CrlCache) (calls : Calls) (url : String)
    (loaded : Except CrlError LocalCrls) : Prop where
  /-- A status that is downloaded is stated at hand. -/
  atHand : ∀ s, (CrlCache.check o cfg c issuer now cache calls).1 = .ok s →
    ∃ crls, loaded = .ok crls ∧ crls.check c issuer now = some (.ok s)
  /-- A status that is stated at hand is downloaded, if the location is a URL. -/
  downloaded : ∀ crls s, loaded = .ok crls → crls.check c issuer now = some (.ok s) →
    (∃ parsed, Url.parse url = .ok parsed) →
      (CrlCache.check o cfg c issuer now cache calls).1 = .ok s
  /-- The CRL that is then downloaded names no distribution point, or this one. -/
  servedFrom : ∀ crls s, loaded = .ok crls → crls.check c issuer now = some (.ok s) →
    ∀ crl ∈ crls, crl.ServedFrom url
  /-- One of them does not say that the certificate is valid and the other that it is revoked. -/
  never : ∀ crls s s', loaded = .ok crls → crls.check c issuer now = some (.ok s) →
    (CrlCache.check o cfg c issuer now cache calls).1 = .ok s' → s = s'

/-- **CRLs at hand and CRLs from distribution points are judged alike.** A certificate has one
distribution point, which serves some octets, and nothing is kept. Then a check that downloads them
says the same as one with CRLs at hand that were read of them alone, PEM or not. -/
theorem agrees_with_download (o : Outside) (cfg : RevocationConfig) {c issuer : Certificate}
    {now : Nat} {cache : CrlCache} {calls : Calls} {url : String} {content : Bytes} {files : Files}
    {paths : List String} {ders : List Bytes} (lone : c.crlUrls = [url])
    (empty : cache.entries = []) (serves : ∀ parsed, Url.parse url = .ok parsed →
      o.reply calls (.get parsed cfg.crlTimeout) = .ok content)
    (given : GivenOnly files paths ders content) :
    AgreesWithDownload o cfg c issuer now cache calls url (load files paths ders) := by
  have hagree (s : CrlStatus) : (CrlCache.check o cfg c issuer now cache calls).1 = .ok s ↔
      (∃ parsed, Url.parse url = .ok parsed) ∧
        ∃ crls, load files paths ders = .ok crls ∧ crls.check c issuer now = some (.ok s) := by
    rw [CrlCache.check_eq_ok_iff_of_serves lone empty serves, given.check_eq_ok_iff]
  refine ⟨fun s hs => ((hagree s).mp hs).2, fun crls s hload hs hparsed => ?_,
    fun crls s hload hs crl hcrl => ?_, fun crls s s' hload hs hs' => ?_⟩
  · exact (hagree s).mpr ⟨hparsed, crls, hload, hs⟩
  · obtain ⟨crl', hcrl', hattests⟩ := attests_of_check hs
    obtain rfl : crl = crl' := Except.ok.inj
      (((given.mem_iff hload).mp hcrl).symm.trans ((given.mem_iff hload).mp hcrl'))
    have hstatus : CrlCache.statusAt crl url c issuer now = .ok s :=
      (CrlCache.statusAt_eq_ok_iff_attests lone).mpr hattests
    exact (CrlCache.statusAt_eq_ok_iff.mp hstatus).1
  · obtain ⟨-, crls', hload', hs''⟩ := (hagree s').mp hs'
    obtain rfl : crls = crls' := Except.ok.inj (hload.symm.trans hload')
    exact Except.ok.inj (Option.some.inj (hs.symm.trans hs''))

end LocalCrls

end Agreement

namespace CrlSample

open AnswerSample

/-- The CRL that lists the fifth certificate. -/
def revokingOctets : Bytes := octets (stated [fifth]) revokingSignature

/-- It is found wherever one asks, -/
def revokingServer : Outside := ⟨fun _ _ => .ok revokingOctets, fun _ => [], fun _ => now⟩

/-- and in every file. -/
def revokingFiles : Files := fun _ => .ok revokingOctets

theorem attests_revoking_located : revoking.Attests located root now .revoked := by
  obtain ⟨-, hstatus⟩ := Crl.attests_iff.mp attests_revoking
  have hserial : alice.serial = located.serial := rfl
  exact Crl.attests_iff.mpr ⟨by decide +kernel, Crl.statusOf_congr hserial ▸ hstatus⟩

end CrlSample

open AnswerSample CrlSample in
theorem LocalCrls.agrees_with_download_of_revocation :
    located.crlUrls = ["ldap:list"] ∧
      GivenOnly revokingFiles ["root.crl"] [revokingOctets] revokingOctets ∧
      (CrlCache.check revokingServer .standard located root now .empty []).1 = .ok .revoked ∧
      ∃ crls, load revokingFiles ["root.crl"] [revokingOctets] = .ok crls ∧
        crls.check located root now = some (.ok .revoked) := by
  have hgiven : GivenOnly revokingFiles ["root.crl"] [revokingOctets] revokingOctets :=
    ⟨fun _ _ => rfl, fun _ hder => List.mem_singleton.mp hder, .inl (List.cons_ne_nil _ _)⟩
  have hparsed : Url.parse "ldap:list" = .ok ⟨"ldap", none, "list", none, none⟩ := rfl
  have hread : Crl.parse revokingOctets = .ok revoking := by decide +kernel
  have hdownloaded : (CrlCache.check revokingServer .standard located root now .empty []).1 =
      .ok .revoked :=
    (CrlCache.check_eq_ok_iff_of_serves rfl rfl fun _ _ => rfl).mpr
      ⟨⟨_, hparsed⟩, revoking, hread, attests_revoking_located⟩
  exact ⟨rfl, hgiven, hdownloaded,
    (agrees_with_download revokingServer .standard rfl rfl (fun _ _ => rfl) hgiven).atHand _
      hdownloaded⟩

end PeerTrust
