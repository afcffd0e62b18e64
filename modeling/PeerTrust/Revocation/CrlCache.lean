import PeerTrust.Revocation.Cache
import PeerTrust.Revocation.Config
import PeerTrust.Revocation.Crl
import PeerTrust.Revocation.Outside

/-!
# CRLs from distribution points

CRLs are downloaded from the locations that a certificate names and kept by location, as the
certificate spells it.

* `CrlCache.checkAt` takes the CRL kept for a location, or downloads one. Either has to be of the
  issuer of the certificate, name the location if it names any, and cover the certificate; only a
  CRL that gave an answer is kept;
* `CrlCache.check` goes through the locations in order until one gives an answer.
-/

namespace PeerTrust

/-- Why a source of revocation data gave no answer: it was not reached, or what it said is of no
use. -/
inductive CrlCacheError where
  | crl (cause : CrlError)
  | network (cause : NetworkError)
deriving DecidableEq, Repr, Inhabited

/-- The wording of an error. -/
def CrlCacheError.message : CrlCacheError → String
  | crl cause => s!"CRL validation failed: {cause.message}"
  | network cause => s!"Network error during validation: {cause.message}"

/-- CRLs by location. -/
abbrev CrlCache := Cache String Crl

namespace CrlCache

/-- The number of CRLs past which the cache is swept. -/
def sweepLimit : Nat := 256

/-- Fails unless a CRL found at a location is about a certificate. -/
def ensureApplies (crl : Crl) (url : String) (c : Certificate) : Except CrlError Unit :=
  if crl.issuer ≠ c.issuer then .error (.foreignIssuer url)
  else
    match crl.coverage with
    | .unusable _ => .ok ()
    | .within scope =>
      if scope.isServedFrom url && scope.includes c then .ok ()
      else .error (.notCovering url c.displayName)

/-- What a CRL found at a location says of a certificate. -/
def statusAt (crl : Crl) (url : String) (c issuer : Certificate) (now : Nat) :
    Except CrlError CrlStatus := do
  ensureApplies crl url c
  crl.statusOf c issuer now

/-- Downloads the CRL at a location. -/
def download (o : Outside) (cfg : RevocationConfig) (url : String) (calls : Calls) :
    Except CrlCacheError Crl × Calls :=
  match Url.parse url with
  | .error e => (.error (.network (.invalidCrlUrl e)), calls)
  | .ok parsed =>
    match o.ask (.get parsed cfg.crlTimeout) calls with
    | (.error e, calls) => (.error (.network e), calls)
    | (.ok content, calls) => ((Crl.parse content).mapError .crl, calls)

/-- What the CRL at one location says of a certificate. -/
def checkAt (o : Outside) (cfg : RevocationConfig) (url : String) (c issuer : Certificate)
    (now : Nat) (cache : CrlCache) (calls : Calls) :
    Except CrlCacheError CrlStatus × CrlCache × Calls :=
  match cache.live? cfg.crlLifetime now url with
  | some kept => ((statusAt kept.value url c issuer now).mapError .crl, cache.countHit, calls)
  | none =>
    let cache := cache.countMiss
    match download o cfg url calls with
    | (.error e, calls) => (.error e, cache, calls)
    | (.ok crl, calls) =>
      match statusAt crl url c issuer now with
      | .error e => (.error (.crl e), cache, calls)
      | .ok status =>
        let storedAt := o.clock calls
        (.ok status, cache.store sweepLimit cfg.crlLifetime storedAt url ⟨crl, storedAt, crl.nextUpdate⟩,
          calls)

/-- Goes through locations; `failed` is what stands where none is left. -/
def checkEach (o : Outside) (cfg : RevocationConfig) (c issuer : Certificate) (now : Nat) :
    (failed : CrlCacheError) → (urls : List String) → CrlCache → Calls →
    Except CrlCacheError CrlStatus × CrlCache × Calls
  | failed, [], cache, calls => (.error failed, cache, calls)
  | _, url :: urls, cache, calls =>
    match checkAt o cfg url c issuer now cache calls with
    | (.ok status, cache, calls) => (.ok status, cache, calls)
    | (.error e, cache, calls) => checkEach o cfg c issuer now e urls cache calls

/-- What the CRLs at the locations that a certificate names say of it. -/
def check (o : Outside) (cfg : RevocationConfig) (c issuer : Certificate) (now : Nat)
    (cache : CrlCache) (calls : Calls) : Except CrlCacheError CrlStatus × CrlCache × Calls :=
  checkEach o cfg c issuer now (.crl (.noDistributionPoint c.displayName)) c.crlUrls cache calls

/-- Drops what has expired at a time. -/
def cleanup (cfg : RevocationConfig) (now : Nat) (cache : CrlCache) : CrlCache :=
  cache.sweep cfg.crlLifetime now

/-- A description of the cache. -/
def describe (cache : CrlCache) : String := "CrlCache \x7b " ++ Cache.describe cache ++ ", .. \x7d"

end CrlCache

end PeerTrust
