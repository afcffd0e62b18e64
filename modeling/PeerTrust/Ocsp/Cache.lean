import PeerTrust.Hash.Sha256
import PeerTrust.Ocsp.Evaluation
import PeerTrust.Revocation.Cache
import PeerTrust.Revocation.Config
import PeerTrust.Revocation.Outside

/-!
# Asking OCSP responders

* `OcspCache` keeps definite answers by the key of the issuer and the serial number;
* `OcspCache.check` takes the answer kept for a certificate, or asks the responders in order until
  one gives an answer that holds;
* `OcspCache.takeStapled` takes the answer that a peer presents, `OcspCache.takeStapledForAll` for
  several certificates.
-/

namespace PeerTrust

/-- What an answer is kept under: a digest of the key of the issuer, and the serial number. -/
structure OcspKey where
  issuerKeyHash : Bytes
  serial : Bytes
deriving DecidableEq, Repr, Inhabited

/-- The key for a certificate of an issuer. -/
def OcspKey.of (c issuer : Certificate) : OcspKey :=
  ⟨Sha256.digest issuer.publicKey.key, c.serial⟩

/-- Why no responder gave an answer. -/
inductive OcspCacheError where
  | ocsp (cause : Ocsp.Error)
  | network (cause : NetworkError)
deriving DecidableEq, Repr, Inhabited

/-- The wording of an error. -/
def OcspCacheError.message : OcspCacheError → String
  | ocsp cause => cause.message
  | network cause => s!"Network error during validation: {cause.message}"

/-- Definite answers by certificate. -/
abbrev OcspCache := Cache OcspKey Ocsp.Status

namespace OcspCache

/-- The number of answers past which the cache is swept. -/
def sweepLimit : Nat := 1024

/-- Keeps an answer that is definite. -/
def record (cfg : RevocationConfig) (c issuer : Certificate) (now : Nat) (a : Ocsp.Answer)
    (cache : OcspCache) : OcspCache :=
  if a.status = .unknown then cache
  else
    cache.store sweepLimit cfg.ocspLifetime now (OcspKey.of c issuer) ⟨a.status, now, a.nextUpdate⟩

/-- Takes what a presented answer states of a certificate. -/
def takeAnswer (cfg : RevocationConfig) (c issuer : Certificate) (now : Nat) (cache : OcspCache) :
    Except Ocsp.Error Ocsp.Answer → Except Ocsp.Error Ocsp.Status × OcspCache
  | .error e => (.error e, cache)
  | .ok a => (.ok a.status, record cfg c issuer now a cache)

/-- Takes the answer that a peer presents. -/
def takeStapled (cfg : RevocationConfig) (response : Bytes) (c issuer : Certificate) (now : Nat)
    (cache : OcspCache) : Except Ocsp.Error Ocsp.Status × OcspCache :=
  takeAnswer cfg c issuer now cache (Ocsp.evaluate response c issuer none now)

/-- Takes one answer for several certificates of an issuer in turn; its signature is checked
once. -/
def takeStapledForAll (cfg : RevocationConfig) (response : Bytes) (cs : List Certificate)
    (issuer : Certificate) (now : Nat) (cache : OcspCache) :
    List (Except Ocsp.Error Ocsp.Status) × OcspCache :=
  let data := Ocsp.authenticate response issuer now
  cs.foldl (fun (results, cache) c =>
    let (result, cache) := takeAnswer cfg c issuer now cache
      (data.bind fun d => d.answer c issuer none now)
    (results ++ [result], cache)) ([], cache)

/-- Reads locations; one that is no URL makes all of them useless. -/
def parseUrls : List String → Except Ocsp.Error (List Url)
  | [] => .ok []
  | text :: rest =>
    match Url.parse text with
    | .error e => .error (.invalidUrl text e)
    | .ok url => (url :: ·) <$> parseUrls rest

/-- The responders to ask: the one that is set, or those that the certificate names. -/
def responders (cfg : RevocationConfig) (c : Certificate) : Except Ocsp.Error (List Url) :=
  match cfg.responder with
  | some url => .ok [url]
  | none =>
    if c.responderUrls = [] then .error (.noResponder c.displayName) else parseUrls c.responderUrls

/-- Asks one responder. -/
def query (o : Outside) (cfg : RevocationConfig) (url : Url) (c issuer : Certificate) (now : Nat)
    (calls : Calls) : Except OcspCacheError Ocsp.Answer × Calls :=
  let nonce := o.nonce calls
  match Ocsp.request? c issuer nonce with
  | none => (.error (.ocsp .serialTooLong), calls)
  | some request =>
    match o.ask (.post url request.encode cfg.ocspTimeout) calls with
    | (.error e, calls) => (.error (.network e), calls)
    | (.ok response, calls) =>
      ((Ocsp.evaluate response c issuer (some nonce) now).mapError .ocsp, calls)

/-- Asks responders until one gives an answer; `failed` is what stands where none is left. -/
def queryEach (o : Outside) (cfg : RevocationConfig) (c issuer : Certificate) (now : Nat) :
    (failed : OcspCacheError) → (urls : List Url) → Calls →
    Except OcspCacheError Ocsp.Answer × Calls
  | failed, [], calls => (.error failed, calls)
  | _, url :: urls, calls =>
    match query o cfg url c issuer now calls with
    | (.ok a, calls) => (.ok a, calls)
    | (.error e, calls) => queryEach o cfg c issuer now e urls calls

/-- The status of a certificate, kept or asked for. -/
def check (o : Outside) (cfg : RevocationConfig) (c issuer : Certificate) (now : Nat)
    (cache : OcspCache) (calls : Calls) : Except OcspCacheError Ocsp.Status × OcspCache × Calls :=
  match cache.live? cfg.ocspLifetime now (OcspKey.of c issuer) with
  | some kept => (.ok kept.value, cache.countHit, calls)
  | none =>
    let cache := cache.countMiss
    match responders cfg c with
    | .error e => (.error (.ocsp e), cache, calls)
    | .ok urls =>
      match queryEach o cfg c issuer now (.ocsp (.noResponder c.displayName)) urls calls with
      | (.error e, calls) => (.error e, cache, calls)
      | (.ok a, calls) => (.ok a.status, record cfg c issuer now a cache, calls)

/-- Drops what has expired at a time. -/
def cleanup (cfg : RevocationConfig) (now : Nat) (cache : OcspCache) : OcspCache :=
  cache.sweep cfg.ocspLifetime now

/-- A description of the cache and the responder that is set. -/
def describe (cfg : RevocationConfig) (cache : OcspCache) : String :=
  let responder := match cfg.responder with
    | none => "None"
    | some url => "Some(" ++ url.describe ++ ")"
  "OcspClient \x7b " ++ Cache.describe cache ++ ", responder_override: " ++ responder ++ ", .. \x7d"

end OcspCache

end PeerTrust
