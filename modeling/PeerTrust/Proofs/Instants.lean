import PeerTrust.Proofs.CalendarTimes
import PeerTrust.Proofs.PathCompleteness
import PeerTrust.Proofs.PeerAcceptance

/-!
# Verification forms no instant that a clock cannot hold

A clock counts seconds in 63 bits, and forming an instant past them is fatal. Here is verification
once more, in `Option`: an instant is formed by `Instant.at?`, and what follows is nothing where it
does not fit. Times that are only compared, and the lifetimes of kept answers, are not instants that
are formed.

* `Certificate.ofDerTimed`, `Crl.parseTimed` and `Path.buildTimed` convert the times they read;
* `Ocsp.evaluateTimed` also moves the time of verification, and what a response promises, by the
  clock difference that is let pass;
* `OcspCache.checkTimed`, `CrlCache.checkTimed`, `RevocationChecker.checkTimed` and
  `PeerVerifier.checkTimed` are what is built of them;
* each comes with an equation: it is the function that runs, and never nothing. Where the time of
  verification is moved, that time has to be one of the calendar;
* `PeerVerifier.instants_fit`: as a chain is accepted at such times only, this holds of every use of
  a verifier at every time.
-/

namespace PeerTrust

open Calendar (lastSecond)

/-! ## 1. Instants -/

namespace Instant

/-- The first second that a clock cannot hold. -/
def limit : Nat := 2 ^ 63

/-- The instant some seconds after the start of 1970. -/
def at? (seconds : Nat) : Option Nat := if seconds < limit then some seconds else none

theorem at?_eq_none_iff {seconds : Nat} : at? seconds = none ↔ limit ≤ seconds := by
  unfold at?
  by_cases h : seconds < limit
  · simp [h]
  · simp [h, Nat.le_of_not_lt h]

/-- The calendar ends long before the limit, the clock difference that is let pass included. -/
theorem lastSecond_lt_limit : lastSecond + Ocsp.clockSkew < limit := by decide

theorem at?_of_le {seconds : Nat} (h : seconds ≤ lastSecond) : at? seconds = some seconds := by
  have hlimit := lastSecond_lt_limit
  exact if_pos (by omega)

theorem at?_of_skewed {seconds : Nat} (h : seconds ≤ lastSecond) :
    at? (seconds + Ocsp.clockSkew) = some (seconds + Ocsp.clockSkew) := by
  have hlimit := lastSecond_lt_limit
  exact if_pos (by omega)

end Instant

/-! ## 2. What is read -/

/-- The certificate that begins a string of octets. -/
def Certificate.ofDerTimed (der : Bytes) : Option (Except CertificateError Certificate) :=
  match ofDer der with
  | .error e => some (.error e)
  | .ok c => do
    let notAfter ← Instant.at? c.notAfter
    return .ok { c with notAfter }

theorem Certificate.ofDerTimed_eq (der : Bytes) : ofDerTimed der = some (ofDer der) := by
  unfold ofDerTimed
  cases hread : ofDer der with
  | error e => rfl
  | ok c =>
    have hfits := Instant.at?_of_le (notAfter_le hread)
    simp only [hfits, Option.bind_eq_bind, Option.bind_some, Option.pure_def]

/-- A CRL, PEM or not. -/
def Crl.parseTimed (content : Bytes) : Option (Except CrlError Crl) :=
  match parse content with
  | .error e => some (.error e)
  | .ok crl => do
    let nextUpdate ← crl.nextUpdate.mapM Instant.at?
    return .ok { crl with nextUpdate }

theorem Crl.parseTimed_eq (content : Bytes) : parseTimed content = some (parse content) := by
  unfold parseTimed
  cases hread : parse content with
  | error e => rfl
  | ok crl =>
    have hfits : crl.nextUpdate.mapM Instant.at? = some crl.nextUpdate := by
      cases hnext : crl.nextUpdate with
      | none => rfl
      | some next =>
        simp [Instant.at?_of_le (nextUpdate_le hread hnext)]
    simp only [hfits, Option.bind_eq_bind, Option.bind_some, Option.pure_def]

namespace Path

/-- The certificates among presented octets. -/
def readableTimed (ders : List Bytes) : Option (List Certificate) := do
  let results ← ders.mapM Certificate.ofDerTimed
  return results.filterMap (·.toOption)

theorem readableTimed_eq (ders : List Bytes) : readableTimed ders = some (readable ders) := by
  have hread : Certificate.ofDerTimed = fun der => pure (Certificate.ofDer der) :=
    funext Certificate.ofDerTimed_eq
  unfold readableTimed readable
  rw [hread, List.mapM_pure]
  exact congrArg some List.filterMap_map

/-- The path from an end entity over presented certificates to one of the anchors. -/
def buildTimed (endEntity : Bytes) (intermediates : List Bytes) (anchors : List Certificate) :
    Option (Except PathError (List Link)) := do
  match ← Certificate.ofDerTimed endEntity with
  | .error e => return .error (.endEntity e)
  | .ok c => return walk anchors maxLength c (← readableTimed intermediates)

theorem buildTimed_eq (endEntity : Bytes) (intermediates : List Bytes)
    (anchors : List Certificate) :
    buildTimed endEntity intermediates anchors =
      some (build endEntity intermediates anchors) := by
  unfold buildTimed build
  rw [Certificate.ofDerTimed_eq]
  cases Certificate.ofDer endEntity with
  | error e => rfl
  | ok c =>
    rw [readableTimed_eq]
    rfl

end Path

/-! ## 3. OCSP responses -/

namespace Ocsp

section Response

variable (issuer : Certificate) (now : Nat)

/-- The certificate of the responder among those of a response. -/
def delegateTimed (id : ResponderId) : List Bytes → Option (Except Error Certificate)
  | [] => some (.error .unknownSigner)
  | der :: rest => do
    match ← Certificate.ofDerTimed der with
    | .error e => return .error (.certificate e)
    | .ok c =>
      if !id.isOf c then delegateTimed id rest
      else if !c.signsOcsp then return .error (.lacksUsage c.displayName)
      else if !c.isIssuedBy issuer then
        return .error (.foreignResponder c.displayName issuer.displayName)
      else if c.notAfter < now then return .error (.expiredResponder c.displayName)
      else return .ok c

theorem delegateTimed_eq (id : ResponderId) (ders : List Bytes) :
    delegateTimed issuer now id ders = some (delegate id issuer now ders) := by
  induction ders with
  | nil => rfl
  | cons der rest ih =>
    simp only [delegateTimed, delegate, Certificate.ofDerTimed_eq, Option.bind_eq_bind,
      Option.bind_some, Option.pure_def, ih]
    cases Certificate.ofDer der with
    | error e => rfl
    | ok c => grind

/-- Whose signature a response needs. -/
def signerTimed (r : BasicResponse) : Option (Except Error Certificate) :=
  if r.data.responder.isOf issuer then some (.ok issuer)
  else delegateTimed issuer now r.data.responder r.certificates

theorem signerTimed_eq (r : BasicResponse) :
    signerTimed issuer now r = some (signer r issuer now) := by
  unfold signerTimed signer
  rw [delegateTimed_eq]
  split <;> rfl

/-- Checks the signature of a response. -/
def verifySignatureTimed (r : BasicResponse) : Option (Except Error Unit) := do
  match ← signerTimed issuer now r with
  | .error e => return .error e
  | .ok c =>
    return (verifyData c r.signatureAlgorithm.oid r.data.encode r.signature).mapError .badSignature

theorem verifySignatureTimed_eq (r : BasicResponse) :
    verifySignatureTimed issuer now r = some (verifySignature r issuer now) := by
  unfold verifySignatureTimed verifySignature
  rw [signerTimed_eq]
  cases signer r issuer now <;> rfl

/-- Checks that a statement is neither of a time to come nor outdated. -/
def checkTimesTimed (s : SingleResponse) : Option (Except Error Unit) := do
  let thisUpdate ← Instant.at? s.thisUpdate.seconds
  let nextUpdate ← s.nextUpdate.mapM fun next => Instant.at? next.seconds
  let latest ← Instant.at? (now + clockSkew)
  if latest < thisUpdate then return .error .future
  match nextUpdate with
  | none => return .ok ()
  | some next =>
    let due ← Instant.at? (next + clockSkew)
    if due < now then return .error .stale else return .ok ()

variable {now} in
theorem checkTimesTimed_eq {s : SingleResponse} (h : s.Dated) (hnow : now ≤ lastSecond) :
    checkTimesTimed now s = some (checkTimes s now) := by
  have hthis := Instant.at?_of_le h.thisUpdate
  have hlatest := Instant.at?_of_skewed hnow
  unfold checkTimesTimed checkTimes
  cases hnext : s.nextUpdate with
  | none =>
    by_cases hfuture : now + clockSkew < s.thisUpdate.seconds
    · simp [hthis, hlatest, hfuture]
    · simp [hthis, hlatest, hfuture]
  | some next =>
    have hfits := Instant.at?_of_le (h.nextUpdate next hnext)
    have hdue := Instant.at?_of_skewed (h.nextUpdate next hnext)
    by_cases hfuture : now + clockSkew < s.thisUpdate.seconds
    · simp [hthis, hlatest, hfits, hfuture]
    · by_cases hstale : next.seconds + clockSkew < now
      · simp [hthis, hlatest, hfits, hdue, hfuture, hstale]
      · simp [hthis, hlatest, hfits, hdue, hfuture, hstale]

/-- At a time past the calendar the clock difference that is let pass could be fatal. -/
example : checkTimesTimed (Instant.limit - 1) default = none := by decide

/-- What signed data state of a certificate. -/
def answerTimed (d : ResponseData) (c : Certificate) (nonce : Option Bytes) :
    Option (Except Error Answer) :=
  match checkNonce d nonce with
  | .error e => some (.error e)
  | .ok () =>
    match d.responses.find? (·.id.isOf c issuer) with
    | none => some (.error .notFound)
    | some s => do
      match ← checkTimesTimed now s with
      | .error e => return .error e
      | .ok () => return .ok ⟨s.status.toStatus, s.nextUpdate.map (·.seconds)⟩

variable {now} in
theorem answerTimed_eq {d : ResponseData} (h : ∀ s ∈ d.responses, s.Dated)
    (hnow : now ≤ lastSecond) (c : Certificate) (nonce : Option Bytes) :
    answerTimed issuer now d c nonce = some (d.answer c issuer nonce now) := by
  unfold answerTimed ResponseData.answer
  cases checkNonce d nonce with
  | error e => rfl
  | ok _ =>
    cases hfind : d.responses.find? (·.id.isOf c issuer) with
    | none => rfl
    | some s =>
      simp only [checkTimesTimed_eq (h s (List.mem_of_find?_eq_some hfind)) hnow]
      cases checkTimes s now <;> rfl

/-- What a response proves of a certificate of an issuer. -/
def evaluateTimed (response : Bytes) (c : Certificate) (nonce : Option Bytes) :
    Option (Except Error Answer) :=
  match decode response with
  | .error e => some (.error e)
  | .ok r => do
    match ← verifySignatureTimed issuer now r with
    | .error e => return .error e
    | .ok () => answerTimed issuer now r.data c nonce

variable {now} in
theorem evaluateTimed_eq (hnow : now ≤ lastSecond) (response : Bytes) (c : Certificate)
    (nonce : Option Bytes) :
    evaluateTimed issuer now response c nonce = some (evaluate response c issuer nonce now) := by
  unfold evaluateTimed evaluate authenticate
  cases hdecode : decode response with
  | error e => rfl
  | ok r =>
    simp only [verifySignatureTimed_eq, bind, Except.bind, Option.bind]
    cases verifySignature r issuer now with
    | error e => rfl
    | ok _ => exact answerTimed_eq issuer (fun _ hs => dated_of_decode hdecode hs) hnow c nonce

end Response

end Ocsp

/-! ## 4. Responders and distribution points -/

section Sources

variable (o : Outside) (cfg : RevocationConfig) (c issuer : Certificate) (now : Nat)

namespace OcspCache

/-- Takes the answer that a peer presents. -/
def takeStapledTimed (response : Bytes) (cache : OcspCache) :
    Option (Except Ocsp.Error Ocsp.Status × OcspCache) := do
  return takeAnswer cfg c issuer now cache (← Ocsp.evaluateTimed issuer now response c none)

/-- Asks one responder. -/
def queryTimed (url : Url) (calls : Calls) : Option (Except OcspCacheError Ocsp.Answer × Calls) :=
  let nonce := o.nonce calls
  match Ocsp.request? c issuer nonce with
  | none => some (.error (.ocsp .serialTooLong), calls)
  | some request =>
    match o.ask (.post url request.encode cfg.ocspTimeout) calls with
    | (.error e, calls) => some (.error (.network e), calls)
    | (.ok response, calls) => do
      return ((← Ocsp.evaluateTimed issuer now response c (some nonce)).mapError .ocsp, calls)

/-- Asks responders until one gives an answer. -/
def queryEachTimed : (failed : OcspCacheError) → (urls : List Url) → Calls →
    Option (Except OcspCacheError Ocsp.Answer × Calls)
  | failed, [], calls => some (.error failed, calls)
  | _, url :: urls, calls => do
    match ← queryTimed o cfg c issuer now url calls with
    | (.ok a, calls) => return (.ok a, calls)
    | (.error e, calls) => queryEachTimed e urls calls

/-- The status of a certificate, kept or asked for. -/
def checkTimed (cache : OcspCache) (calls : Calls) :
    Option (Except OcspCacheError Ocsp.Status × OcspCache × Calls) :=
  match cache.live? cfg.ocspLifetime now (OcspKey.of c issuer) with
  | some kept => some (.ok kept.value, cache.countHit, calls)
  | none =>
    let cache := cache.countMiss
    match responders cfg c with
    | .error e => some (.error (.ocsp e), cache, calls)
    | .ok urls => do
      match ← queryEachTimed o cfg c issuer now (.ocsp (.noResponder c.displayName)) urls calls with
      | (.error e, calls) => return (.error e, cache, calls)
      | (.ok a, calls) => return (.ok a.status, record cfg c issuer now a cache, calls)

variable {now} (hnow : now ≤ lastSecond)

include hnow

theorem takeStapledTimed_eq (response : Bytes) (cache : OcspCache) :
    takeStapledTimed cfg c issuer now response cache =
      some (takeStapled cfg response c issuer now cache) := by
  unfold takeStapledTimed
  rw [Ocsp.evaluateTimed_eq issuer hnow]
  rfl

theorem queryTimed_eq (url : Url) (calls : Calls) :
    queryTimed o cfg c issuer now url calls = some (query o cfg url c issuer now calls) := by
  unfold queryTimed query
  simp only [Ocsp.evaluateTimed_eq issuer hnow]
  cases Ocsp.request? c issuer (o.nonce calls) with
  | none => rfl
  | some request =>
    dsimp only
    cases o.ask (.post url request.encode cfg.ocspTimeout) calls with
    | mk result calls => cases result <;> rfl

theorem queryEachTimed_eq (failed : OcspCacheError) (urls : List Url) (calls : Calls) :
    queryEachTimed o cfg c issuer now failed urls calls =
      some (queryEach o cfg c issuer now failed urls calls) := by
  induction urls generalizing failed calls with
  | nil => rfl
  | cons url urls ih =>
    unfold queryEachTimed queryEach
    rw [queryTimed_eq o cfg c issuer hnow]
    cases query o cfg url c issuer now calls with
    | mk result calls =>
      cases result with
      | error e => exact ih e calls
      | ok a => rfl

theorem checkTimed_eq (cache : OcspCache) (calls : Calls) :
    checkTimed o cfg c issuer now cache calls = some (check o cfg c issuer now cache calls) := by
  unfold checkTimed check
  cases cache.live? cfg.ocspLifetime now (OcspKey.of c issuer) with
  | some kept => rfl
  | none =>
    cases responders cfg c with
    | error e => rfl
    | ok urls =>
      simp only [queryEachTimed_eq o cfg c issuer hnow]
      cases queryEach o cfg c issuer now (.ocsp (.noResponder c.displayName)) urls calls with
      | mk result calls => cases result <;> rfl

end OcspCache

namespace CrlCache

/-- Downloads the CRL at a location. -/
def downloadTimed (url : String) (calls : Calls) : Option (Except CrlCacheError Crl × Calls) :=
  match Url.parse url with
  | .error e => some (.error (.network (.invalidCrlUrl e)), calls)
  | .ok parsed =>
    match o.ask (.get parsed cfg.crlTimeout) calls with
    | (.error e, calls) => some (.error (.network e), calls)
    | (.ok content, calls) => do
      return ((← Crl.parseTimed content).mapError .crl, calls)

/-- What the CRL at one location says of a certificate. -/
def checkAtTimed (url : String) (cache : CrlCache) (calls : Calls) :
    Option (Except CrlCacheError CrlStatus × CrlCache × Calls) :=
  match cache.live? cfg.crlLifetime now url with
  | some kept =>
    some ((statusAt kept.value url c issuer now).mapError .crl, cache.countHit, calls)
  | none => do
    let cache := cache.countMiss
    match ← downloadTimed o cfg url calls with
    | (.error e, calls) => return (.error e, cache, calls)
    | (.ok crl, calls) =>
      match statusAt crl url c issuer now with
      | .error e => return (.error (.crl e), cache, calls)
      | .ok status =>
        let storedAt := o.clock calls
        let kept := ⟨crl, storedAt, crl.nextUpdate⟩
        return (.ok status, cache.store sweepLimit cfg.crlLifetime storedAt url kept, calls)

/-- Goes through locations. -/
def checkEachTimed : (failed : CrlCacheError) → (urls : List String) → CrlCache → Calls →
    Option (Except CrlCacheError CrlStatus × CrlCache × Calls)
  | failed, [], cache, calls => some (.error failed, cache, calls)
  | _, url :: urls, cache, calls => do
    match ← checkAtTimed o cfg c issuer now url cache calls with
    | (.ok status, cache, calls) => return (.ok status, cache, calls)
    | (.error e, cache, calls) => checkEachTimed e urls cache calls

/-- What the CRLs at the locations that a certificate names say of it. -/
def checkTimed (cache : CrlCache) (calls : Calls) :
    Option (Except CrlCacheError CrlStatus × CrlCache × Calls) :=
  checkEachTimed o cfg c issuer now (.crl (.noDistributionPoint c.displayName)) c.crlUrls cache
    calls

theorem downloadTimed_eq (url : String) (calls : Calls) :
    downloadTimed o cfg url calls = some (download o cfg url calls) := by
  unfold downloadTimed download
  simp only [Crl.parseTimed_eq]
  cases Url.parse url with
  | error e => rfl
  | ok parsed =>
    dsimp only
    cases o.ask (.get parsed cfg.crlTimeout) calls with
    | mk result calls => cases result <;> rfl

theorem checkAtTimed_eq (url : String) (cache : CrlCache) (calls : Calls) :
    checkAtTimed o cfg c issuer now url cache calls =
      some (checkAt o cfg url c issuer now cache calls) := by
  unfold checkAtTimed checkAt
  rw [downloadTimed_eq]
  cases cache.live? cfg.crlLifetime now url with
  | some kept => rfl
  | none =>
    cases download o cfg url calls with
    | mk result calls =>
      cases result with
      | error e => rfl
      | ok crl =>
        simp only [Option.bind_eq_bind, Option.bind_some]
        cases statusAt crl url c issuer now <;> rfl

theorem checkEachTimed_eq (failed : CrlCacheError) (urls : List String) (cache : CrlCache)
    (calls : Calls) :
    checkEachTimed o cfg c issuer now failed urls cache calls =
      some (checkEach o cfg c issuer now failed urls cache calls) := by
  induction urls generalizing failed cache calls with
  | nil => rfl
  | cons url urls ih =>
    unfold checkEachTimed checkEach
    rw [checkAtTimed_eq]
    cases checkAt o cfg url c issuer now cache calls with
    | mk result state =>
      cases result with
      | error e => exact ih e state.1 state.2
      | ok status => rfl

theorem checkTimed_eq (cache : CrlCache) (calls : Calls) :
    checkTimed o cfg c issuer now cache calls = some (check o cfg c issuer now cache calls) :=
  checkEachTimed_eq o cfg c issuer now _ _ cache calls

end CrlCache

end Sources

/-! ## 5. The policy -/

namespace RevocationChecker

section Policy

variable (o : Outside) (enabled : Bool) (c issuer : Certificate) (staple : Option Bytes)
  (now : Nat)

/-- Asks the answer that the peer presents, if it presents one. -/
def askStapleTimed (k : RevocationChecker) : Option (Progress × RevocationChecker) :=
  match staple.filter (· ≠ []) with
  | none => some (.error [], k)
  | some response => do
    let (result, ocsp) ← k.ocsp.takeStapledTimed k.config c issuer now response
    return (decide c .stapledOcsp [] (.ofResult Ocsp.Error.message .ofOcsp result), { k with ocsp })

/-- Asks the responders, where OCSP is enabled. -/
def askOcspTimed (reasons : List String) (k : RevocationChecker) (calls : Calls) :
    Option (Progress × RevocationChecker × Calls) :=
  if enabled then do
    let (result, ocsp, calls) ← k.ocsp.checkTimed o k.config c issuer now calls
    return (decide c .ocsp reasons (.ofResult OcspCacheError.message .ofOcsp result),
      { k with ocsp }, calls)
  else some (.error (reasons ++ ["OCSP: revocation checking is not enabled"]), k, calls)

/-- Asks the CRLs from distribution points. -/
def askDistributionTimed (reasons : List String) (k : RevocationChecker) (calls : Calls) :
    Option (Progress × RevocationChecker × Calls) := do
  let (result, crls, calls) ← k.crls.checkTimed o k.config c issuer now calls
  return (decide c .distributionPoint reasons (.ofResult CrlCacheError.message .ofCrl result),
    { k with crls }, calls)

/-- Establishes the status of a certificate of an issuer. CRLs at hand form no instant. -/
def checkTimed (k : RevocationChecker) (calls : Calls) :
    Option (Except ValidationFailure RevocationSource × RevocationChecker × Calls) := do
  match ← askStapleTimed c issuer staple now k with
  | (.ok decision, k) => return (decision, k, calls)
  | (.error reasons, k) =>
    match ← askOcspTimed o enabled c issuer now reasons k calls with
    | (.ok decision, k, calls) => return (decision, k, calls)
    | (.error reasons, k, calls) =>
      match askLocal c issuer now reasons k with
      | .ok decision => return (decision, k, calls)
      | .error reasons =>
        let (progress, k, calls) ← askDistributionTimed o c issuer now reasons k calls
        return (conclude c progress, k, calls)

variable {now} (hnow : now ≤ lastSecond)

include hnow

theorem askStapleTimed_eq (k : RevocationChecker) :
    askStapleTimed c issuer staple now k = some (askStaple c issuer staple now k) := by
  unfold askStapleTimed askStaple
  cases staple.filter (· ≠ []) with
  | none => rfl
  | some response =>
    simp only [OcspCache.takeStapledTimed_eq k.config c issuer hnow]
    rfl

theorem askOcspTimed_eq (reasons : List String) (k : RevocationChecker) (calls : Calls) :
    askOcspTimed o enabled c issuer now reasons k calls =
      some (askOcsp o enabled c issuer now reasons k calls) := by
  unfold askOcspTimed askOcsp
  rw [OcspCache.checkTimed_eq o k.config c issuer hnow]
  cases enabled <;> rfl

theorem checkTimed_eq (k : RevocationChecker) (calls : Calls) :
    checkTimed o enabled c issuer staple now k calls =
      some (check o enabled c issuer staple now k calls) := by
  unfold checkTimed check
  rw [askStapleTimed_eq c issuer staple hnow]
  cases askStaple c issuer staple now k with
  | mk progress k =>
    cases progress with
    | ok decision => rfl
    | error reasons =>
      simp only [Option.bind_eq_bind, Option.bind_some, askOcspTimed_eq o enabled c issuer hnow]
      cases askOcsp o enabled c issuer now reasons k calls with
      | mk progress state =>
        cases progress with
        | ok decision => rfl
        | error reasons =>
          simp only [askDistributionTimed, CrlCache.checkTimed_eq, askDistribution]
          cases askLocal c issuer now reasons state.1 <;> rfl

end Policy

end RevocationChecker

/-! ## 6. Peers -/

namespace PeerVerifier

section Peer

variable (o : Outside) (p : SecurityPolicy) (v : PeerVerifier) (endEntity : Bytes)
  (intermediates : List Bytes) (now : Nat)

/-- Asks for one link after the other. -/
def checkLinksTimed : (staple : Option Bytes) → List Link → RevocationChecker → Calls →
    Option (Checked ValidationFailure)
  | _, [], k, calls => some (.ok (), k, calls)
  | staple, link :: rest, k, calls => do
    match ← k.checkTimed o p.ocspEnabled link.certificate link.issuer staple now calls with
    | (.ok _, k, calls) => checkLinksTimed none rest k calls
    | (.error e, k, calls) => return (.error e, k, calls)

/-- Verifies a peer that may present a staple. The time of verification becomes an instant once a
path is found. -/
def checkTimed (role : PeerRole) (staple : Option Bytes) (k : RevocationChecker) (calls : Calls) :
    Option (Checked ValidationFailure) :=
  match v.acceptsChain role endEntity intermediates now with
  | .error e => some (.error (.untrusted s!"invalid peer certificate: {e.message}"), k, calls)
  | .ok () => do
    match ← Path.buildTimed endEntity intermediates (v.anchors.map (·.certificate)) with
    | .error e => return (.error (.untrusted e.message), k, calls)
    | .ok links => checkLinksTimed o p (← Instant.at? now) staple links k calls

/-- What comes of a use, with the refusal that an error carries. -/
def Use.runTimed (k : RevocationChecker) (calls : Calls) (use : Use) :
    Option (Checked (Option ValidationFailure)) := do
  let checked ← v.checkTimed o p endEntity intermediates now use.role use.staple k calls
  return Prod.map (·.mapError some) id checked

variable {now} in
theorem checkLinksTimed_eq (hnow : now ≤ lastSecond) (staple : Option Bytes) (links : List Link)
    (k : RevocationChecker) (calls : Calls) :
    checkLinksTimed o p now staple links k calls =
      some (checkLinks o p now staple links k calls) := by
  induction links generalizing staple k calls with
  | nil => rfl
  | cons link rest ih =>
    unfold checkLinksTimed checkLinks
    rw [RevocationChecker.checkTimed_eq _ _ _ _ _ hnow]
    cases k.check o p.ocspEnabled link.certificate link.issuer staple now calls with
    | mk result state =>
      cases result with
      | error e => rfl
      | ok source => exact ih none state.1 state.2

theorem le_of_acceptsChain {role : PeerRole}
    (h : v.acceptsChain role endEntity intermediates now = .ok ()) : now ≤ lastSecond := by
  obtain ⟨c, start, stop, -, hvalid, -, hnow⟩ := valid_of_acceptsChain h
  exact hnow.trans hvalid.stop_le

theorem checkTimed_eq (role : PeerRole) (staple : Option Bytes) (k : RevocationChecker)
    (calls : Calls) :
    v.checkTimed o p endEntity intermediates now role staple k calls =
      some (v.check o p role endEntity intermediates staple now k calls) := by
  unfold checkTimed check path
  cases hchain : v.acceptsChain role endEntity intermediates now with
  | error e => rfl
  | ok _ =>
    have hnow := le_of_acceptsChain v endEntity intermediates now hchain
    rw [Path.buildTimed_eq]
    cases Path.build endEntity intermediates (v.anchors.map (·.certificate)) with
    | error e => rfl
    | ok links =>
      simp only [Option.bind_eq_bind, Option.bind_some, Instant.at?_of_le hnow]
      exact checkLinksTimed_eq o p hnow staple links k calls

/-- **No verification forms an instant that a clock cannot hold**, whatever the time, the chain and
the staple are, whatever is kept and for how long, and whatever comes back from outside. A clock
holds all below the second `2 ^ 63`. A chain is accepted only while its end entity is valid, and all
times that are read of certificates, CRLs and responses are of the calendar; the clock difference
that is let pass leads none of them too far. -/
theorem instants_fit (use : Use) (k : RevocationChecker) (calls : Calls) :
    use.runTimed o p v endEntity intermediates now k calls =
        some (use.run o p v endEntity intermediates now k calls) ∧
    (∀ seconds, Instant.at? seconds = none ↔ 2 ^ 63 ≤ seconds) ∧
    (v.acceptsChain use.role endEntity intermediates now = .ok () →
      ∃ c start stop, Pkix.Certificate.ofDer endEntity = .ok c ∧ c.ValidFrom start stop ∧
        start ≤ now ∧ now ≤ stop ∧ stop ≤ lastSecond) ∧
    (∀ der c, Certificate.ofDer der = .ok c → c.notAfter ≤ lastSecond) ∧
    (∀ content crl next, Crl.parse content = .ok crl → crl.nextUpdate = some next →
      next ≤ lastSecond) ∧
    (∀ response r s, Ocsp.decode response = .ok r → s ∈ r.data.responses → s.Dated) ∧
    lastSecond + Ocsp.clockSkew < 2 ^ 63 := by
  refine ⟨?_, fun _ => Instant.at?_eq_none_iff, ?_, fun _ _ => Certificate.notAfter_le,
    fun _ _ _ h => Crl.nextUpdate_le h, fun _ _ _ h => Ocsp.dated_of_decode h,
    Instant.lastSecond_lt_limit⟩
  · unfold Use.runTimed
    rw [checkTimed_eq, Use.run_eq]
    rfl
  · intro h
    obtain ⟨c, start, stop, hread, hvalid, hstart, hstop⟩ := valid_of_acceptsChain h
    exact ⟨c, start, stop, hread, hvalid, hstart, hstop, hvalid.stop_le⟩

end Peer

end PeerVerifier

open PathSample (leaf mid) in
theorem PeerVerifier.instants_fit_for_leaf :
    acceptsChain ⟨(TrustAnchor.ofCertificate? mid).toList⟩ .client leaf.der [] 1735776000 =
        .ok () ∧
      ∃ c start stop, Pkix.Certificate.ofDer leaf.der = .ok c ∧ c.ValidFrom start stop ∧
        start ≤ 1735776000 ∧ 1735776000 ≤ stop ∧ stop ≤ lastSecond := by
  have accepted : acceptsChain ⟨(TrustAnchor.ofCertificate? mid).toList⟩ .client leaf.der []
      1735776000 = .ok () := by decide +kernel
  have fits := instants_fit AnswerSample.silent .initial ⟨(TrustAnchor.ofCertificate? mid).toList⟩
    leaf.der [] 1735776000 .verifyClient ⟨.standard, [], .empty, .empty⟩ []
  exact ⟨accepted, fits.2.2.1 accepted⟩

end PeerTrust
