import PeerTrust.Proofs.CrlFiles
import PeerTrust.Proofs.KeptCrls

/-!
# CRLs of distribution points

A CRL may be one of several that its issuer distributes, and name where it is found.

* `Crl.pointsOf` are the locations that an extension names, and `Crl.points_of_coverageFrom`: they
  are those of the scope;
* `Crl.SilentOn` says that no status of a certificate is stated on the strength of a CRL:
  `Crl.silentOn_of_not_attests`;
* `Crl.silent_outside_points`: a CRL that names a location is silent on certificates that name none
  of its locations; `Crl.vouches_outside_directory`: one that names its distribution point in
  another way is not.
-/

namespace PeerTrust

open X509 (Extension GeneralName IssuingDistributionPoint)
open X509.Strict (encodeSequence)

theorem X509.GeneralName.mem_uris_iff {names : List GeneralName} {url : String} :
    url ∈ GeneralName.uris names ↔ GeneralName.uri url ∈ names := by
  rw [uris, List.mem_filterMap]
  constructor
  · intro h
    obtain ⟨name, hname, hurl⟩ := h
    cases name with
    | uri text =>
      cases hurl
      exact hname
    | other => cases hurl
  · intro h
    exact ⟨_, h, rfl⟩

namespace Crl

/-! ## 1. Scopes and extensions -/

/-- The issuing distribution point that an extension is, if it is one that can be read. -/
def point? (x : Extension) : Option IssuingDistributionPoint :=
  if x.oid = Oid.issuingDistributionPoint then IssuingDistributionPoint.ofValue? x.value else none

/-- The locations that an extension names. -/
def pointsOf (x : Extension) : List String :=
  match point? x with
  | some p => GeneralName.uris p.names
  | none => []

theorem coverageFrom_cons (s : Scope) (x : Extension) (xs : List Extension) :
    coverageFrom s (x :: xs) =
      match point? x with
      | some p => coverageFrom (s.restrict p) xs
      | none => if x.critical then .unusable x.oid else coverageFrom s xs := rfl

/-- **The locations in a scope are those that the extensions name**, after those that were in it. -/
theorem points_of_coverageFrom {s s' : Scope} {xs : List Extension}
    (h : coverageFrom s xs = .within s') :
    s'.distributionPoints = s.distributionPoints ++ xs.flatMap pointsOf := by
  induction xs generalizing s with
  | nil =>
    cases h
    rw [List.flatMap_nil, List.append_nil]
  | cons x xs ih =>
    rw [coverageFrom_cons] at h
    rw [List.flatMap_cons, ← List.append_assoc, pointsOf]
    cases hx : point? x with
    | some p =>
      rw [hx] at h
      exact ih h
    | none =>
      simp only [hx] at h
      split at h
      · cases h
      · rw [ih h, List.append_nil]

/-- Extensions of other kinds name none. -/
theorem flatMap_pointsOf_filter (xs : List Extension) :
    (xs.filter (·.oid = Oid.issuingDistributionPoint)).flatMap pointsOf = xs.flatMap pointsOf := by
  induction xs with
  | nil => rfl
  | cons x xs ih =>
    by_cases hoid : x.oid = Oid.issuingDistributionPoint
    · rw [List.filter_cons_of_pos (by simpa using hoid), List.flatMap_cons, List.flatMap_cons, ih]
    · have hx : pointsOf x = [] := by rw [pointsOf, point?, if_neg hoid]
      rw [List.filter_cons_of_neg (by simpa using hoid), List.flatMap_cons, ih, hx, List.nil_append]

/-- The octets of a CRL carry one issuing distribution point. -/
def CarriesPoint (der : Bytes) (p : IssuingDistributionPoint) : Prop :=
  ∃ x, (X509.RevocationList.read? der).map
      (·.extensions.filter (·.oid = Oid.issuingDistributionPoint)) = some [x] ∧
    IssuingDistributionPoint.ofValue? x.value = some p

/-- The locations in its scope are those that it names. -/
theorem points_of_carriesPoint {der : Bytes} {crl : Crl} {p : IssuingDistributionPoint}
    {scope : Scope} (hread : ofDer der = .ok crl) (hpoint : CarriesPoint der p)
    (hwithin : crl.coverage = .within scope) :
    scope.distributionPoints = GeneralName.uris p.names := by
  obtain ⟨list, hlist, rfl⟩ := ofDer_eq_ok_iff.mp hread
  obtain ⟨x, hone, hp⟩ := hpoint
  rw [hlist, Option.map_some, Option.some.injEq] at hone
  have hoid : x.oid = Oid.issuingDistributionPoint := by
    have hx : x ∈ list.extensions.filter (·.oid = Oid.issuingDistributionPoint) := by
      rw [hone]
      exact List.mem_singleton_self x
    simpa using List.of_mem_filter hx
  calc scope.distributionPoints
      = [] ++ list.extensions.flatMap pointsOf := points_of_coverageFrom hwithin
    _ = [x].flatMap pointsOf := by rw [List.nil_append, ← flatMap_pointsOf_filter, hone]
    _ = GeneralName.uris p.names := by
      rw [List.flatMap_singleton, pointsOf, point?, if_pos hoid, hp]

/-! ## 2. CRLs that play no part -/

variable {crl : Crl} {c : Certificate}

/-- A CRL is at hand for a check that has been made: it was kept, or a server sent it. -/
inductive Available (o : Outside) (cache : CrlCache) (before after : Calls) (crl : Crl) : Prop
  | kept (url : String) (storedAt : Nat) (nextUpdate : Option Nat)
      (mem : (url, ⟨crl, storedAt, nextUpdate⟩) ∈ cache.entries)
  | sent (downloaded : Downloaded o before after crl)

/-- No status of a certificate is stated on the strength of a CRL. -/
structure SilentOn (crl : Crl) (c : Certificate) : Prop where
  /-- It attests none, for no issuer and at no time. -/
  attests : ∀ issuer now s, ¬ crl.Attests c issuer now s
  /-- CRLs at hand state the same ones without it. -/
  atHand : ∀ (crls : LocalCrls) issuer now s,
    LocalCrls.check (crls.filter (· ≠ crl)) c issuer now = some (.ok s) ↔
      crls.check c issuer now = some (.ok s)
  /-- If CRLs of distribution points state one, another CRL attests it. -/
  distributed : ∀ o cfg issuer now cache calls s,
    (CrlCache.check o cfg c issuer now cache calls).1 = .ok s →
      ∃ other ≠ crl, other.Attests c issuer now s ∧
        Available o cache calls (CrlCache.check o cfg c issuer now cache calls).2.2 other

theorem silentOn_of_not_attests (h : ∀ issuer now s, ¬ crl.Attests c issuer now s) :
    crl.SilentOn c := by
  have hothers (crls : LocalCrls) (issuer now s) :
      (∃ other ∈ crls.filter (· ≠ crl), other.Attests c issuer now s) ↔
        ∃ other ∈ crls, other.Attests c issuer now s := by
    refine exists_congr fun other => and_congr_left fun hother => ?_
    have hne : other ≠ crl := fun heq => h issuer now s (heq ▸ hother)
    simp [hne]
  refine ⟨h, fun crls issuer now s => ?_, fun o cfg issuer now cache calls s hs => ?_⟩
  · cases s with
    | revoked => rw [LocalCrls.check_eq_revoked_iff, LocalCrls.check_eq_revoked_iff, hothers]
    | valid => rw [LocalCrls.check_eq_valid_iff, LocalCrls.check_eq_valid_iff, hothers, hothers]
  · have hrests := CrlCache.check_restsOn (o := o)
      (P := Available o cache calls (CrlCache.check o cfg c issuer now cache calls).2.2)
      (fun url kept hmem => .kept url kept.storedAt kept.nextUpdate hmem)
      fun content crl hreplied hparsed => .sent ⟨content, hreplied, hparsed⟩
    obtain ⟨other, havailable, hother⟩ := hrests.attested s hs
    exact ⟨other, fun heq => h issuer now s (heq ▸ hother), hother, havailable⟩

/-- **A CRL that names a location vouches for no certificate outside its locations.** Nor does it
tell that one is revoked. -/
theorem silent_outside_points {der : Bytes} {p : IssuingDistributionPoint}
    (hread : ofDer der = .ok crl) (hpoint : CarriesPoint der p)
    (hlocated : ∃ url, GeneralName.uri url ∈ p.names)
    (houtside : ∀ url ∈ c.crlUrls, GeneralName.uri url ∉ p.names) : crl.SilentOn c := by
  refine silentOn_of_not_attests fun issuer now s hattests => ?_
  obtain ⟨scope, hwithin, hincludes, -, -⟩ := hattests.scope
  have hpoints := points_of_carriesPoint hread hpoint hwithin
  rcases hincludes.points with hnone | ⟨url, hurl, hmem⟩
  · obtain ⟨url, hurl⟩ := hlocated
    rw [hpoints] at hnone
    exact List.not_mem_nil (hnone ▸ GeneralName.mem_uris_iff.mpr hurl)
  · rw [hpoints, GeneralName.mem_uris_iff] at hmem
    exact houtside url hurl hmem

end Crl

/-! ## 3. Points that are named otherwise -/

namespace CrlSample

open AnswerSample

/-- The extension by which a CRL names its distribution point; it must be understood. -/
def pointOf (name : Bytes) : Extension :=
  ⟨Oid.issuingDistributionPoint, true, encodeSequence
    [Der.encode (Der.tagExplicit 0) (Der.encode (Der.tagExplicit 0) name)]⟩

/-- Its written form, the only extension of a CRL. -/
def extensionOf (name : Bytes) : Bytes :=
  Der.encode (Der.tagExplicit 0) (encodeSequence [encodeSequence
    [Der.encode Der.tagOid Oid.issuingDistributionPoint.octets, Der.encode 1 [255],
      Der.encode Der.tagOctets (pointOf name).value]])

/-- A directory name. -/
def directory : Bytes := Der.encode (Der.tagExplicit 4) (named "elsewhere")

/-- A location. -/
def location : Bytes := Der.encode 0x86 (Bytes.ofText "ldap:elsewhere")

def partitionedSignature : Bytes :=
  signature 0x60f40d8f17a268814f14faf95636d71658dbafaee451a6f058a538d23882566f
    0xeac0b7d051179af6a06a2ef79b0e2fae91de9debd2ffbe5631dbb79cc66b1ad2

/-- A CRL of a distribution point with another location. It lists nothing, and its signature is that
of another CRL. -/
def elsewhere : Crl :=
  kept [] (.within { Crl.Scope.complete with distributionPoints := ["ldap:elsewhere"] })
    (stated [extensionOf location]) cleanSignature

/-- A CRL of a distribution point with a directory name. It lists nothing. -/
def partitioned : Crl :=
  kept [] (.within .complete) (stated [extensionOf directory]) partitionedSignature

/-- The fifth certificate of the root names a distribution point. -/
def located : Certificate := { alice with crlUrls := ["ldap:list"] }

/-- There, this CRL is found. -/
def server : Outside :=
  ⟨fun _ _ => .ok (octets (stated [extensionOf directory]) partitionedSignature), fun _ => [],
    fun _ => now⟩

end CrlSample

open AnswerSample CrlSample in
theorem Crl.silent_elsewhere :
    ofDer (CrlSample.octets (stated [extensionOf location]) cleanSignature) = .ok elsewhere ∧
      elsewhere.SilentOn located ∧ LocalCrls.check [elsewhere] located root now = none := by
  have hread : ofDer (CrlSample.octets (stated [extensionOf location]) cleanSignature) =
      .ok elsewhere := by decide +kernel
  have hpoint : CarriesPoint (CrlSample.octets (stated [extensionOf location]) cleanSignature)
      ⟨[.uri "ldap:elsewhere"], false, false, false, false, false⟩ :=
    ⟨pointOf location, by decide +kernel, by decide +kernel⟩
  exact ⟨hread, silent_outside_points hread hpoint ⟨_, List.mem_singleton_self _⟩ (by decide),
    by decide +kernel⟩

open AnswerSample CrlSample in
theorem Crl.vouches_outside_directory :
    let der := CrlSample.octets (stated [extensionOf directory]) partitionedSignature
    let p : IssuingDistributionPoint := ⟨[.other], false, false, false, false, false⟩
    ofDer der = .ok partitioned ∧ CarriesPoint der p ∧
      (∀ url ∈ located.crlUrls, GeneralName.uri url ∉ p.names) ∧
      LocalCrls.check [partitioned] located root now = some (.ok .valid) ∧
      (CrlCache.check server .standard located root now .empty []).1 = .ok .valid := by
  have hread : ofDer (CrlSample.octets (stated [extensionOf directory]) partitionedSignature) =
      .ok partitioned := by decide +kernel
  have hparse : Crl.parse (CrlSample.octets (stated [extensionOf directory]) partitionedSignature) =
      .ok partitioned := by decide +kernel
  have hparsed : Url.parse "ldap:list" = .ok ⟨"ldap", none, "list", none, none⟩ := rfl
  have hstatus : CrlCache.statusAt partitioned "ldap:list" located root now = .ok .valid := by
    decide +kernel
  have hvouches : partitioned.Attests located root now .valid :=
    CrlCache.attests_of_statusAt hstatus
  have hatHand : LocalCrls.check [partitioned] located root now = some (.ok .valid) := by
    refine LocalCrls.check_eq_valid_iff.mpr ⟨fun h => ?_, _, List.mem_singleton_self _, hvouches⟩
    obtain ⟨crl, hcrl, hrevoked⟩ := h
    obtain rfl := List.mem_singleton.mp hcrl
    -- the list is empty
    exact List.not_mem_nil (hrevoked.listed.mpr rfl)
  exact ⟨hread, ⟨pointOf directory, by decide +kernel, by decide +kernel⟩, by decide, hatHand,
    (CrlCache.check_again rfl hparsed rfl hparse hstatus hstatus rfl rfl).1⟩

end PeerTrust
