import PeerTrust.Proofs.CrlThreads
import PeerTrust.Proofs.Evidence

/-!
# What kept CRLs say

Checks and clean-ups of one cache overlap in any way.

* `CrlCache.keeps_attested`: what is kept for a location was downloaded from there, for a
  certificate of its issuer, and verified; what is found is verified once more, for the certificate
  and the issuer at hand, before it says anything;
* `CrlCache.attests_under_two_keys`: a signature may hold under two keys, and then the CRL speaks
  for the issuers with either of them.
-/

namespace PeerTrust

namespace CrlCache

variable {o : Outside} {cfg : RevocationConfig} {c issuer : Certificate} {now : Nat}
  {cache : CrlCache} {calls : Calls} {url : String} {rest : List String} {s : CrlShared}
  {status : CrlStatus} {kept : Kept Crl}

/-! ## 1. What is found -/

/-- **A look-up answers only with what the CRL that it finds attests now.** -/
theorem lookUp_eq_answered_iff : (lookUp cfg c issuer now url rest s).1 = .answered (.ok status) ↔
    ∃ kept, s.cache.live? cfg.crlLifetime now url = some kept ∧ kept.value.ServedFrom url ∧
      kept.value.Attests c issuer now status := by
  simp only [← statusAt_eq_ok_iff]
  unfold lookUp
  cases s.cache.live? cfg.crlLifetime now url with
  | none => simp
  | some kept => cases hstatus : statusAt kept.value url c issuer now <;> simp [hstatus]

/-- So it does not answer for certificates of another issuer than that of the CRL, or under a key
that did not sign it. -/
theorem lookUp_of_foreign (hlive : s.cache.live? cfg.crlLifetime now url = some kept)
    (hforeign : kept.value.issuer ≠ c.issuer ∨ issuer.publicKey.verify
      kept.value.signatureAlgorithm kept.value.signed kept.value.signature ≠ .ok ()) :
    (lookUp cfg c issuer now url rest s).1 ≠ .answered (.ok status) := by
  intro hanswered
  -- what is found attests the answer now, so its issuer is named and its signature holds
  obtain ⟨kept', hlive', -, hattests⟩ := lookUp_eq_answered_iff.mp hanswered
  obtain rfl : kept = kept' := Option.some.inj (hlive.symm.trans hlive')
  rcases hforeign with hname | hkey
  · exact hname hattests.named
  · exact hkey hattests.signed

/-- One location, at which something is found. -/
theorem checkAt_of_live? (calls : Calls)
    (hlive : cache.live? cfg.crlLifetime now url = some kept) :
    checkAt o cfg url c issuer now cache calls =
      ((statusAt kept.value url c issuer now).mapError .crl, cache.countHit, calls) := by
  simp only [checkAt, hlive]

/-! ## 2. What is kept -/

/-- One location that fails leaves the CRLs as they are. -/
theorem checkAt_entries_of_error {e : CrlCacheError}
    (h : (checkAt o cfg url c issuer now cache calls).1 = .error e) :
    (checkAt o cfg url c issuer now cache calls).2.1.entries = cache.entries := by
  revert h
  unfold checkAt
  split
  · exact fun _ => rfl
  · simp only
    split
    · exact fun _ => rfl
    · split
      · exact fun _ => rfl
      · intro h
        cases h

variable (o cfg) in
/-- The CRLs kept were fetched and verified, and are verified again for every answer, in a pool of
uses that overlap. -/
structure KeepsAttested (p : Machine.Pool CrlShared CrlUse CrlPhase) : Prop where
  kept : ∀ url kept, (url, kept) ∈ p.shared.cache.entries →
    ∃ use ∈ p.uses, Fetched o cfg use p.shared.calls url kept.value
  /-- A step that changes what is kept is a clean-up, or it stores what was fetched and is the last
  one of a check that gives an answer. -/
  changes : ∀ use phase, (use, phase) ∈ p.threads →
    (step o cfg use phase p.shared).2.cache.entries ≠ p.shared.cache.entries →
      (∃ now, use = .cleanup now) ∨ ∃ url crl storedAt status,
        phase = .storing url crl storedAt status ∧ Fetched o cfg use p.shared.calls url crl ∧
        step o cfg use phase p.shared =
          (.answered (.ok status), storeNow cfg url crl storedAt p.shared)
  /-- A look-up answers with what the CRL that it finds attests at that time of the certificate,
  under the issuer that it was given. -/
  found : ∀ c issuer now url rest status,
    (lookUp cfg c issuer now url rest p.shared).1 = .answered (.ok status) ↔
      ∃ kept, p.shared.cache.live? cfg.crlLifetime now url = some kept ∧
        kept.value.ServedFrom url ∧ kept.value.Attests c issuer now status
  /-- It does not answer for a certificate that names another issuer than the one that the CRL was
  fetched for, or under a key that did not sign the CRL. -/
  foreign : ∀ c issuer now url rest kept c₀ issuer₀ now₀ status,
    p.shared.cache.live? cfg.crlLifetime now url = some kept →
    Fetched o cfg (.check c₀ issuer₀ now₀) p.shared.calls url kept.value →
    (c.issuer ≠ c₀.issuer ∨ issuer.publicKey.verify kept.value.signatureAlgorithm
      kept.value.signed kept.value.signature ≠ .ok ()) →
    (lookUp cfg c issuer now url rest p.shared).1 ≠ .answered (.ok status)

/-- **What is kept was fetched and verified, and is verified again.** However checks and clean-ups
overlap, whatever the times at which they look, and whatever servers reply; uses that follow one
another are a case of that. A location that fails changes nothing. -/
theorem keeps_attested (o : Outside) (cfg : RevocationConfig) :
    (∀ moves, KeepsAttested o cfg (run o cfg moves)) ∧
    (∀ uses : List CrlUse, ∃ moves,
      ((run o cfg moves).shared.cache, (run o cfg moves).shared.calls) =
        uses.foldl (applyUse o cfg) (.empty, [])) ∧
    (∀ url c issuer now cache calls e,
      (checkAt o cfg url c issuer now cache calls).1 = .error e →
        (checkAt o cfg url c issuer now cache calls).2.1.entries = cache.entries) ∧
    ∀ url c issuer now (cache : CrlCache) calls kept status,
      cache.live? cfg.crlLifetime now url = some kept →
        (checkAt o cfg url c issuer now cache calls).1 = .ok status →
          kept.value.ServedFrom url ∧ kept.value.Attests c issuer now status := by
  refine ⟨fun moves => ?_, exists_schedule o cfg, fun _ _ _ _ _ _ _ => checkAt_entries_of_error,
    fun url c issuer now cache calls kept status hlive hok => ?_⟩
  · obtain ⟨hfetched, hsound⟩ := holds_run o cfg moves
    refine ⟨hfetched, fun use phase hmem hchange => ?_, fun _ _ _ _ _ _ => lookUp_eq_answered_iff,
      fun c issuer now url rest kept c₀ issuer₀ now₀ status hlive h₀ hforeign => ?_⟩
    · have hdoes : Does o cfg use phase (run o cfg moves).shared _ :=
        step_does (hsound use phase hmem)
      generalize step o cfg use phase (run o cfg moves).shared = r at hdoes hchange
      cases hdoes with
      | quiet entries _ _ => exact absurd entries hchange
      | stores phase_eq =>
        subst phase_eq
        exact .inr ⟨_, _, _, _, rfl, hsound use _ hmem, rfl⟩
      | sweeps use_eq => exact .inl ⟨_, use_eq⟩
    · obtain ⟨c', issuer', now', huse, -, hissuer, -⟩ := h₀.issued
      cases huse
      exact lookUp_of_foreign hlive (hforeign.imp_left fun hne heq => hne (heq.symm.trans hissuer))
  · rw [checkAt_of_live? calls hlive] at hok
    exact statusAt_eq_ok_iff.mp (mapError_eq_ok_iff.mp hok)

/-! ## 3. Two keys for one signature -/

/-- A check with one location that downloads a CRL, and a check of the same location after it. -/
theorem check_again {content : Bytes} {parsed : Url} {crl : Crl} {issuer' : Certificate}
    {status' : CrlStatus} (hurls : c.crlUrls = [url]) (hparsed : Url.parse url = .ok parsed)
    (hreply : o.reply [] (.get parsed cfg.crlTimeout) = .ok content)
    (hread : Crl.parse content = .ok crl)
    (hstatus : statusAt crl url c issuer now = .ok status)
    (hstatus' : statusAt crl url c issuer' now = .ok status')
    (hclock : o.clock [.get parsed cfg.crlTimeout] = now)
    (hfresh : Kept.isExpired cfg.crlLifetime now ⟨crl, now, crl.nextUpdate⟩ = false) :
    (check o cfg c issuer now .empty []).1 = .ok status ∧
      (check o cfg c issuer' now (check o cfg c issuer now .empty []).2.1
        (check o cfg c issuer now .empty []).2.2).1 = .ok status' ∧
      (check o cfg c issuer' now (check o cfg c issuer now .empty []).2.1
        (check o cfg c issuer now .empty []).2.2).2.1.hits = 1 := by
  have hdownload : download o cfg url [] = (.ok crl, [.get parsed cfg.crlTimeout]) :=
    download_eq_ok_iff.mpr ⟨parsed, content, hparsed, hreply, hread, rfl⟩
  have hfirst : check o cfg c issuer now .empty [] = (.ok status,
      (Cache.countMiss .empty : CrlCache).store sweepLimit cfg.crlLifetime now url
        ⟨crl, now, crl.nextUpdate⟩, [.get parsed cfg.crlTimeout]) := by
    have hmiss : (Cache.empty : CrlCache).live? cfg.crlLifetime now url = none := rfl
    simp only [check, hurls, checkEach, checkAt, hmiss, hdownload, hstatus, hclock]
  have hlive : ((Cache.countMiss .empty : CrlCache).store sweepLimit cfg.crlLifetime now url
      ⟨crl, now, crl.nextUpdate⟩).live? cfg.crlLifetime now url =
        some ⟨crl, now, crl.nextUpdate⟩ := Cache.live?_store_self hfresh
  rw [hfirst]
  refine ⟨rfl, ?_, ?_⟩
  · simp only [check, hurls, checkEach, checkAt, hlive, hstatus', mapError_ok]
  · simp only [check, hurls, checkEach, checkAt, hlive, hstatus', mapError_ok]
    simp [Cache.store, Cache.countHit, Cache.countMiss, Cache.insert, Cache.empty, Cache.size,
      sweepLimit]

end CrlCache

namespace Sample

def url : String := "ldap:list"

/-- The certificate names a location. -/
def located : Certificate := { certificate with crlUrls := [url] }

/-- There, the CRL is found. -/
def crlServer : Outside := ⟨fun _ _ => .ok crl, fun _ => [], fun _ => now⟩

/-- A signature tells one coordinate of a point on the curve. Of the two points that have it, one
leads to the key of the issuer and the other to this one: the signature of the CRL holds under
both. -/
def otherIssuer : Certificate :=
  { issuer with
    publicKey := ⟨issuer.publicKey.algorithm,
      4 :: (Bytes.ofNat 32 0x3814b15e536ee0d535c19f6cf93f2a77f6b8824a7eba089d4f949fa29dde48e4 ++
        Bytes.ofNat 32 0x6b2adcd1dadf168e87fcf1bb2cf431b5262473ed9deb6228571e374ea80291cf)⟩ }

end Sample

open Sample in
theorem CrlCache.attests_under_two_keys :
    otherIssuer.publicKey ≠ issuer.publicKey ∧
      (check crlServer .standard located issuer now .empty []).1 = .ok .revoked ∧
      (check crlServer .standard located otherIssuer now
        (check crlServer .standard located issuer now .empty []).2.1
        (check crlServer .standard located issuer now .empty []).2.2).1 = .ok .revoked ∧
      (check crlServer .standard located otherIssuer now
        (check crlServer .standard located issuer now .empty []).2.1
        (check crlServer .standard located issuer now .empty []).2.2).2.1.hits = 1 := by
  have hparsed : Url.parse url = .ok ⟨"ldap", none, "list", none, none⟩ := rfl
  have hread : Crl.parse crl = .ok record := by decide +kernel
  have hstatus : statusAt record url located issuer now = .ok .revoked := by decide +kernel
  have hstatus' : statusAt record url located otherIssuer now = .ok .revoked := by decide +kernel
  exact ⟨by decide, check_again rfl hparsed rfl hread hstatus hstatus' rfl rfl⟩

end PeerTrust
