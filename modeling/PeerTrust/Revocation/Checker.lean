import PeerTrust.Ocsp.Cache
import PeerTrust.Revocation.CrlCache
import PeerTrust.Revocation.LocalCrls

/-!
# The policy of revocation checks

Sources are asked in a fixed order: the answer that the peer presents, OCSP responders, CRLs at
hand, CRLs from distribution points. The first that says whether a certificate is good or revoked
decides; a certificate of which none says so is refused.

* `RevocationSource` names the sources, `Verdict` is what one says;
* `RevocationChecker` is the policy with its caches, `RevocationChecker.check` applies it.
-/

namespace PeerTrust

/-- A source of revocation data. -/
inductive RevocationSource where
  | stapledOcsp
  | ocsp
  | localCrl
  | distributionPoint
deriving DecidableEq, Repr, Inhabited

/-- The words for a source. -/
def RevocationSource.name : RevocationSource → String
  | stapledOcsp => "stapled OCSP response"
  | ocsp => "OCSP"
  | localCrl => "local CRL"
  | distributionPoint => "CRL distribution point"

/-- What a source says of a certificate. -/
inductive Verdict where
  | good
  | revoked
  | inconclusive (reason : String)
deriving DecidableEq, Repr, Inhabited

namespace Verdict

/-- What a status of an OCSP answer amounts to. -/
def ofOcsp : Ocsp.Status → Verdict
  | .good => good
  | .revoked => revoked
  | .unknown => inconclusive "responder does not know the certificate"

/-- What a status by a CRL amounts to. -/
def ofCrl : CrlStatus → Verdict
  | .valid => good
  | .revoked => revoked

/-- What a result amounts to; an error decides nothing. -/
def ofResult {ε α : Type} (message : ε → String) (status : α → Verdict) : Except ε α → Verdict
  | .ok a => status a
  | .error e => inconclusive (message e)

/-- What CRLs at hand amount to. -/
def ofLocal : Option (Except CrlError CrlStatus) → Verdict
  | none => inconclusive "none issued by the certificate's issuer"
  | some r => ofResult (fun e => s!"CRL validation failed: {e.message}") ofCrl r

end Verdict

/-- Why a certificate is refused. -/
inductive ValidationFailure where
  | untrusted (detail : String)
  | revoked (subject : String) (source : RevocationSource)
  | undetermined (subject : String) (detail : String)
deriving DecidableEq, Repr, Inhabited

/-- The wording of a refusal. -/
def ValidationFailure.message : ValidationFailure → String
  | untrusted detail => s!"untrusted certificate chain: {detail}"
  | revoked subject source => s!"certificate '{subject}' is revoked ({source.name})"
  | undetermined subject detail =>
    s!"revocation status of '{subject}' could not be determined: {detail}"

/-- How often the caches answered, and how much they hold. -/
structure RevocationStats where
  ocspHits : Nat
  ocspMisses : Nat
  ocspCached : Nat
  crlHits : Nat
  crlMisses : Nat
  crlCached : Nat
deriving DecidableEq, Repr, Inhabited

/-- The policy with its sources and caches. -/
structure RevocationChecker where
  config : RevocationConfig
  localCrls : LocalCrls
  ocsp : OcspCache
  crls : CrlCache
deriving Inhabited

namespace RevocationChecker

/-- A policy with empty caches. CRLs at hand are read now, so that a bad one shows at once. -/
def load (config : RevocationConfig) (files : Files) (storeCrls : List Bytes) :
    Except CrlError RevocationChecker := do
  return ⟨config, ← LocalCrls.load files config.crlPaths storeCrls, .empty, .empty⟩

/-- What is known so far: the decision of a source, or the reasons why none decided yet. -/
abbrev Progress := Except (List String) (Except ValidationFailure RevocationSource)

/-- The decision of a source, or one more reason. -/
def decide (c : Certificate) (source : RevocationSource) (reasons : List String) :
    Verdict → Progress
  | .good => .ok (.ok source)
  | .revoked => .ok (.error (.revoked c.displayName source))
  | .inconclusive reason => .error (reasons ++ [s!"{source.name}: {reason}"])

/-- Asks the answer that the peer presents, if it presents one. -/
def askStaple (c issuer : Certificate) (staple : Option Bytes) (now : Nat) (k : RevocationChecker) :
    Progress × RevocationChecker :=
  match staple.filter (· ≠ []) with
  | none => (.error [], k)
  | some response =>
    let (result, ocsp) := k.ocsp.takeStapled k.config response c issuer now
    (decide c .stapledOcsp [] (.ofResult Ocsp.Error.message .ofOcsp result), { k with ocsp })

/-- Asks the responders, where OCSP is enabled. -/
def askOcsp (o : Outside) (enabled : Bool) (c issuer : Certificate) (now : Nat)
    (reasons : List String) (k : RevocationChecker) (calls : Calls) :
    Progress × RevocationChecker × Calls :=
  if enabled then
    let (result, ocsp, calls) := k.ocsp.check o k.config c issuer now calls
    (decide c .ocsp reasons (.ofResult OcspCacheError.message .ofOcsp result), { k with ocsp }, calls)
  else (.error (reasons ++ ["OCSP: revocation checking is not enabled"]), k, calls)

/-- Asks the CRLs at hand. -/
def askLocal (c issuer : Certificate) (now : Nat) (reasons : List String) (k : RevocationChecker) :
    Progress :=
  decide c .localCrl reasons (.ofLocal (k.localCrls.check c issuer now))

/-- Asks the CRLs from distribution points. -/
def askDistribution (o : Outside) (c issuer : Certificate) (now : Nat) (reasons : List String)
    (k : RevocationChecker) (calls : Calls) : Progress × RevocationChecker × Calls :=
  let (result, crls, calls) := k.crls.check o k.config c issuer now calls
  (decide c .distributionPoint reasons (.ofResult CrlCacheError.message .ofCrl result),
    { k with crls }, calls)

/-- The result where sources have been asked: the decision, or that there is none. -/
def conclude (c : Certificate) : Progress → Except ValidationFailure RevocationSource
  | .ok decision => decision
  | .error reasons => .error (.undetermined c.displayName ("; ".intercalate reasons))

/-- Establishes the status of a certificate of an issuer, and names the source that vouches for
it. -/
def check (o : Outside) (enabled : Bool) (c issuer : Certificate) (staple : Option Bytes)
    (now : Nat) (k : RevocationChecker) (calls : Calls) :
    Except ValidationFailure RevocationSource × RevocationChecker × Calls :=
  match askStaple c issuer staple now k with
  | (.ok decision, k) => (decision, k, calls)
  | (.error reasons, k) =>
    match askOcsp o enabled c issuer now reasons k calls with
    | (.ok decision, k, calls) => (decision, k, calls)
    | (.error reasons, k, calls) =>
      match askLocal c issuer now reasons k with
      | .ok decision => (decision, k, calls)
      | .error reasons =>
        let (progress, k, calls) := askDistribution o c issuer now reasons k calls
        (conclude c progress, k, calls)

/-- How often the caches answered, and how much they hold. -/
def stats (k : RevocationChecker) : RevocationStats :=
  ⟨k.ocsp.hits, k.ocsp.misses, k.ocsp.size, k.crls.hits, k.crls.misses, k.crls.size⟩

/-- Drops what has expired at a time. -/
def cleanup (now : Nat) (k : RevocationChecker) : RevocationChecker :=
  { k with ocsp := k.ocsp.cleanup k.config now, crls := k.crls.cleanup k.config now }

end RevocationChecker

end PeerTrust
