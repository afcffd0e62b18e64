import PeerTrust.Proofs.CacheContents
import PeerTrust.Proofs.ResponderTurns
import PeerTrust.Proofs.SourceOrder

/-!
# Looks at sources, and what they count

A check of revocation looks at one source after another. Each look counts what it found, may ask the
network, and may add to what is kept.

* `Look` is one look with what became of it;
* `Look.Occurs` says when it comes about and what it leaves: an answer that is kept is taken as it
  is; otherwise responders are asked up to the first that is accepted (`OcspCache.Turns`), or one
  CRL is downloaded from its location (`CrlCache.gets`);
* `Books` adds looks up: `Look.Occurs.books` for one look, `Books.append` for looks in a row.
-/

namespace PeerTrust

/-! ## 1. Looks -/

/-- One look at a source, with what became of it. -/
inductive Look where
  | staple (result : Except Ocsp.Error Ocsp.Status)
  /-- An answer of a responder is kept. -/
  | ocspHit (status : Ocsp.Status)
  /-- None is, and responders are asked. -/
  | ocspMiss (posts : Calls) (result : Except OcspCacheError Ocsp.Status)
  | localCrls (result : Option (Except CrlError CrlStatus))
  /-- A CRL from a location is kept. -/
  | crlHit (url : String) (result : Except CrlCacheError CrlStatus)
  /-- None is, and it is downloaded. -/
  | crlMiss (url : String) (gets : Calls) (result : Except CrlCacheError CrlStatus)

namespace Look

/-- The source that is looked at. -/
def source : Look → RevocationSource
  | staple _ => .stapledOcsp
  | ocspHit _ | ocspMiss _ _ => .ocsp
  | localCrls _ => .localCrl
  | crlHit _ _ | crlMiss _ _ _ => .distributionPoint

/-- The location of the CRL that is looked at. -/
def location? : Look → Option String
  | crlHit url _ | crlMiss url _ _ => some url
  | _ => none

/-- What is asked of the network. -/
def calls : Look → Calls
  | ocspMiss posts _ => posts
  | crlMiss _ gets _ => gets
  | _ => []

def isOcspHit : Look → Bool
  | ocspHit _ => true
  | _ => false

def isOcspMiss : Look → Bool
  | ocspMiss _ _ => true
  | _ => false

def isCrlHit : Look → Bool
  | crlHit _ _ => true
  | _ => false

def isCrlMiss : Look → Bool
  | crlMiss _ _ _ => true
  | _ => false

/-- What is said of the certificate. -/
def verdict : Look → Verdict
  | staple result => .ofResult Ocsp.Error.message .ofOcsp result
  | ocspHit status => .ofOcsp status
  | ocspMiss _ result => .ofResult OcspCacheError.message .ofOcsp result
  | localCrls result => .ofLocal result
  | crlHit _ result | crlMiss _ _ result => .ofResult CrlCacheError.message .ofCrl result

/-- Whether it is said that the certificate is good, or that it is revoked. -/
def isDefinite (look : Look) : Bool :=
  match look.verdict with
  | .good | .revoked => true
  | .inconclusive _ => false

/-- Whether a staple or a responder gives a definite answer that was not kept. -/
def addsAnswer : Look → Bool
  | staple (.ok status) | ocspMiss _ (.ok status) => status ≠ .unknown
  | _ => false

/-- Whether a CRL that was not kept gives a status. -/
def addsCrl : Look → Bool
  | crlMiss _ _ (.ok _) => true
  | _ => false

end Look

/-! ## 2. Books -/

/-- Looks add up: the counts grow by the look-ups that found something and by those that did not,
the calls by what was asked, and what is kept at most by the definite answers that were not kept. -/
structure Books (looks : List Look) (before after : RevocationState) : Prop where
  ocspHits : after.1.stats.ocspHits = before.1.stats.ocspHits + looks.countP Look.isOcspHit
  ocspMisses : after.1.stats.ocspMisses = before.1.stats.ocspMisses + looks.countP Look.isOcspMiss
  ocspCached : after.1.stats.ocspCached ≤ before.1.stats.ocspCached + looks.countP Look.addsAnswer
  crlHits : after.1.stats.crlHits = before.1.stats.crlHits + looks.countP Look.isCrlHit
  crlMisses : after.1.stats.crlMisses = before.1.stats.crlMisses + looks.countP Look.isCrlMiss
  crlCached : after.1.stats.crlCached ≤ before.1.stats.crlCached + looks.countP Look.addsCrl
  calls : after.2 = before.2 ++ looks.flatMap Look.calls

namespace Books

variable {before middle after : RevocationState} {looks later : List Look}

theorem refl (state : RevocationState) : Books [] state state := by
  constructor <;> simp

theorem append (h : Books looks before middle) (h' : Books later middle after) :
    Books (looks ++ later) before after where
  ocspHits := by rw [h'.ocspHits, h.ocspHits, List.countP_append, Nat.add_assoc]
  ocspMisses := by rw [h'.ocspMisses, h.ocspMisses, List.countP_append, Nat.add_assoc]
  ocspCached := by
    have := h'.ocspCached
    have := h.ocspCached
    rw [List.countP_append]
    omega
  crlHits := by rw [h'.crlHits, h.crlHits, List.countP_append, Nat.add_assoc]
  crlMisses := by rw [h'.crlMisses, h.crlMisses, List.countP_append, Nat.add_assoc]
  crlCached := by
    have := h'.crlCached
    have := h.crlCached
    rw [List.countP_append]
    omega
  calls := by rw [h'.calls, h.calls, List.flatMap_append, List.append_assoc]

end Books

/-! ## 3. What is kept -/

namespace Cache

variable {κ α : Type} {c : Cache κ α}

theorem size_sweep_le (lifetime now : Nat) : (c.sweep lifetime now).size ≤ c.size :=
  List.length_filter_le _ _

variable [BEq κ]

theorem size_store_le (limit lifetime now : Nat) (key : κ) (kept : Kept α) :
    (c.store limit lifetime now key kept).size ≤ c.size + 1 := by
  have hinsert : (c.insert key kept).size ≤ c.size + 1 :=
    Nat.succ_le_succ (List.length_filter_le _ _)
  unfold store
  simp only
  split
  · exact Nat.le_trans (size_sweep_le lifetime now) hinsert
  · exact hinsert

theorem store_hits (limit lifetime now : Nat) (key : κ) (kept : Kept α) :
    (c.store limit lifetime now key kept).hits = c.hits := by
  unfold store
  simp only
  split <;> rfl

theorem store_misses (limit lifetime now : Nat) (key : κ) (kept : Kept α) :
    (c.store limit lifetime now key kept).misses = c.misses := by
  unfold store
  simp only
  split <;> rfl

end Cache

namespace OcspCache

variable {o : Outside} {cfg : RevocationConfig} {c issuer : Certificate} {now : Nat}
  {cache : OcspCache}

theorem size_record_le (cache : OcspCache) (a : Ocsp.Answer) :
    (record cfg c issuer now a cache).size ≤ cache.size + if a.status = .unknown then 0 else 1 := by
  unfold record
  split
  · exact Nat.le_refl _
  · exact Cache.size_store_le _ _ _ _ _

/-! ## 4. Responders -/

/-- Questions about one certificate to responders in turn, each with a nonce of its own. -/
def posts (o : Outside) (cfg : RevocationConfig) (id : Ocsp.CertId) : Calls → List Url → Calls
  | _, [] => []
  | calls, url :: urls =>
    let call := Call.post url (Ocsp.Request.mk id (o.nonce calls)).encode cfg.ocspTimeout
    call :: posts o cfg id (calls ++ [call]) urls

theorem posts_append (id : Ocsp.CertId) (calls : Calls) (urls urls' : List Url) :
    posts o cfg id calls (urls ++ urls') = posts o cfg id calls urls ++
      posts o cfg id (calls ++ posts o cfg id calls urls) urls' := by
  induction urls generalizing calls with
  | nil => simp [posts]
  | cons url urls ih => simp [posts, ih]

/-- Responders have their turns from the first on: all of them where no reply is accepted, or else
up to the first whose reply is. -/
inductive Turns (o : Outside) (cfg : RevocationConfig) (c issuer : Certificate) (now : Nat)
    (urls : List Url) (calls : Calls) : List Url → Except OcspCacheError Ocsp.Status → Prop where
  | none {after : Calls} {e : OcspCacheError}
      (declined : Declined o cfg c issuer now urls calls after) :
      Turns o cfg c issuer now urls calls urls (.error e)
  | first {before later : List Url} {url : Url} {middle : Calls} {a : Ocsp.Answer}
      (order : urls = before ++ url :: later)
      (declined : Declined o cfg c issuer now before calls middle)
      (accepts : Accepts o cfg c issuer now url middle a) :
      Turns o cfg c issuer now urls calls (before ++ [url]) (.ok a.status)

section Turns

variable {id : Ocsp.CertId} {urls : List Url} {calls after : Calls}

theorem Declined.eq_posts (h : Declined o cfg c issuer now urls calls after)
    (named : Ocsp.certId? c issuer = some id) : after = calls ++ posts o cfg id calls urls := by
  induction h with
  | nil calls => simp [posts]
  | @cons url urls calls after _ _ ih =>
    rw [ih, asked_of_certId named, List.append_assoc]
    rfl

/-- **Where nothing is kept, responders have their turns**, and what is kept grows by no more than
the answer that is accepted. -/
theorem check_turns (may : MayAsk cfg c urls) (named : Ocsp.certId? c issuer = some id)
    (missed : cache.live? cfg.ocspLifetime now (.of c issuer) = none) :
    ∃ asked result cache', Turns o cfg c issuer now urls calls asked result ∧
      check o cfg c issuer now cache calls =
        (result, cache', calls ++ posts o cfg id calls asked) ∧
      cache'.hits = cache.hits ∧ cache'.misses = cache.misses + 1 ∧
      cache'.size ≤ cache.size +
        [Look.ocspMiss (posts o cfg id calls asked) result].countP Look.addsAnswer := by
  rcases hcheck : check o cfg c issuer now cache calls with ⟨e | status, cache', after⟩
  · obtain ⟨hdeclined, rfl⟩ := (check_eq_error_iff may missed).mp ⟨e, hcheck⟩
    obtain rfl := hdeclined.eq_posts named
    exact ⟨urls, .error e, _, .none hdeclined, rfl, rfl, rfl, Nat.le_add_right _ _⟩
  · obtain ⟨a, ⟨before, url, later, middle, order, hdeclined, haccepts, rfl⟩, rfl, rfl⟩ :=
      (check_eq_ok_iff may missed).mp hcheck
    have hafter : asked o cfg c issuer url middle =
        calls ++ posts o cfg id calls (before ++ [url]) := by
      rw [asked_of_certId named, hdeclined.eq_posts named, posts_append, List.append_assoc]
      rfl
    obtain ⟨hhits, hmisses⟩ :=
      RevocationChecker.record_counters c issuer now cfg a cache.countMiss
    refine ⟨before ++ [url], .ok a.status, record cfg c issuer now a cache.countMiss,
      .first order hdeclined haccepts, by rw [hafter], hhits, hmisses, ?_⟩
    have hadds : [Look.ocspMiss (posts o cfg id calls (before ++ [url])) (.ok a.status)].countP
        Look.addsAnswer = if a.status = .unknown then 0 else 1 := by
      simp [List.countP_cons, Look.addsAnswer]
    rw [hadds]
    exact size_record_le cache.countMiss a

end Turns

end OcspCache

/-! ## 5. Locations of CRLs -/

namespace CrlCache

variable {o : Outside} {cfg : RevocationConfig} {c issuer : Certificate} {now : Nat}
  {cache : CrlCache} {calls : Calls} {url : String}

/-- The one download from a location, or none where it is no URL. -/
def gets (cfg : RevocationConfig) (url : String) : Calls :=
  match Url.parse url with
  | .ok parsed => [.get parsed cfg.crlTimeout]
  | .error _ => []

theorem download_snd (o : Outside) (cfg : RevocationConfig) (url : String) (calls : Calls) :
    (download o cfg url calls).2 = calls ++ gets cfg url := by
  unfold download gets Outside.ask
  cases Url.parse url with
  | error e => simp
  | ok parsed => cases hreply : o.reply calls (.get parsed cfg.crlTimeout) <;> simp [hreply]

/-- **Where no CRL is kept for a location, it is downloaded once**, and kept only if it gives a
status. -/
theorem checkAt_miss (missed : cache.live? cfg.crlLifetime now url = none) :
    ∃ result cache', checkAt o cfg url c issuer now cache calls =
        (result, cache', calls ++ gets cfg url) ∧
      cache'.hits = cache.hits ∧ cache'.misses = cache.misses + 1 ∧
      cache'.size ≤ cache.size +
        [Look.crlMiss url (gets cfg url) result].countP Look.addsCrl := by
  have hcalls := download_snd o cfg url calls
  rw [← hcalls]
  simp only [checkAt, missed]
  rcases download o cfg url calls with ⟨e | crl, after⟩
  · exact ⟨.error e, cache.countMiss, rfl, rfl, rfl, Nat.le_add_right _ _⟩
  simp only
  cases statusAt crl url c issuer now with
  | error e => exact ⟨.error (.crl e), cache.countMiss, rfl, rfl, rfl, Nat.le_add_right _ _⟩
  | ok status =>
    have hadds : [Look.crlMiss url (gets cfg url) (.ok status)].countP Look.addsCrl = 1 := rfl
    refine ⟨.ok status, cache.countMiss.store sweepLimit cfg.crlLifetime (o.clock after) url
      ⟨crl, o.clock after, crl.nextUpdate⟩, rfl, Cache.store_hits _ _ _ _ _,
      Cache.store_misses _ _ _ _ _, ?_⟩
    rw [hadds]
    exact Cache.size_store_le (c := cache.countMiss) _ _ _ _ _

end CrlCache

/-! ## 6. What a look leaves -/

namespace Look

/-- A look comes about in a state, in a check of a certificate of an issuer, and leaves another. -/
inductive Occurs (o : Outside) (c issuer : Certificate) (now : Nat) :
    RevocationState → Look → RevocationState → Prop where
  | staple {k : RevocationChecker} {calls : Calls} (response : Bytes) :
      Occurs o c issuer now (k, calls)
        (.staple (k.ocsp.takeStapled k.config response c issuer now).1)
        ({ k with ocsp := (k.ocsp.takeStapled k.config response c issuer now).2 }, calls)
  | ocspHit {k : RevocationChecker} {calls : Calls} {kept : Kept Ocsp.Status}
      (found : k.ocsp.live? k.config.ocspLifetime now (.of c issuer) = some kept) :
      Occurs o c issuer now (k, calls) (.ocspHit kept.value)
        ({ k with ocsp := k.ocsp.countHit }, calls)
  /-- The responders are the one that is set, or those that the certificate names; each is asked
  about this certificate. -/
  | ocspMiss {k : RevocationChecker} {calls : Calls} {urls asked : List Url} {id : Ocsp.CertId}
      {result : Except OcspCacheError Ocsp.Status} {ocsp : OcspCache}
      (missed : k.ocsp.live? k.config.ocspLifetime now (.of c issuer) = none)
      (may : OcspCache.MayAsk k.config c urls) (named : Ocsp.certId? c issuer = some id)
      (turns : OcspCache.Turns o k.config c issuer now urls calls asked result)
      (ran : k.ocsp.check o k.config c issuer now calls =
        (result, ocsp, calls ++ OcspCache.posts o k.config id calls asked)) :
      Occurs o c issuer now (k, calls)
        (.ocspMiss (OcspCache.posts o k.config id calls asked) result)
        ({ k with ocsp }, calls ++ OcspCache.posts o k.config id calls asked)
  | localCrls (state : RevocationState) :
      Occurs o c issuer now state (.localCrls (state.1.localCrls.check c issuer now)) state
  | crlHit {k : RevocationChecker} {calls : Calls} {url : String} {kept : Kept Crl}
      (found : k.crls.live? k.config.crlLifetime now url = some kept) :
      Occurs o c issuer now (k, calls)
        (.crlHit url ((CrlCache.statusAt kept.value url c issuer now).mapError .crl))
        ({ k with crls := k.crls.countHit }, calls)
  | crlMiss {k : RevocationChecker} {calls : Calls} {url : String}
      {result : Except CrlCacheError CrlStatus} {crls : CrlCache}
      (missed : k.crls.live? k.config.crlLifetime now url = none)
      (ran : CrlCache.checkAt o k.config url c issuer now k.crls calls =
        (result, crls, calls ++ CrlCache.gets k.config url)) :
      Occurs o c issuer now (k, calls) (.crlMiss url (CrlCache.gets k.config url) result)
        ({ k with crls }, calls ++ CrlCache.gets k.config url)

variable {o : Outside} {c issuer : Certificate} {now : Nat} {before after : RevocationState}
  {look : Look}

theorem Occurs.config (h : Occurs o c issuer now before look after) :
    after.1.config = before.1.config := by
  cases h <;> rfl

/-- A staple is no look-up, and what is kept grows by no more than what it says. -/
theorem takeStapled_books (c issuer : Certificate) (now : Nat) (cfg : RevocationConfig)
    (response : Bytes) (cache : OcspCache) :
    let r := cache.takeStapled cfg response c issuer now
    r.2.hits = cache.hits ∧ r.2.misses = cache.misses ∧
      r.2.size ≤ cache.size + [Look.staple r.1].countP Look.addsAnswer := by
  simp only [OcspCache.takeStapled]
  cases Ocsp.evaluate response c issuer none now with
  | error e => exact ⟨rfl, rfl, Nat.le_add_right _ _⟩
  | ok a =>
    obtain ⟨hhits, hmisses⟩ := RevocationChecker.record_counters c issuer now cfg a cache
    have hadds : [Look.staple (.ok a.status)].countP Look.addsAnswer =
        if a.status = .unknown then 0 else 1 := by
      simp [List.countP_cons, Look.addsAnswer]
    refine ⟨hhits, hmisses, ?_⟩
    simp only [OcspCache.takeAnswer, hadds]
    exact OcspCache.size_record_le cache a

/-- **A look is counted once**, as what it is, and nothing else is. -/
theorem Occurs.books (h : Occurs o c issuer now before look after) :
    Books [look] before after := by
  cases h with
  | @staple k calls response =>
    obtain ⟨hhits, hmisses, hsize⟩ :=
      takeStapled_books c issuer now k.config response k.ocsp
    exact ⟨hhits, hmisses, hsize, rfl, rfl, Nat.le_refl _, (List.append_nil _).symm⟩
  | ocspHit found =>
    exact ⟨rfl, rfl, Nat.le_refl _, rfl, rfl, Nat.le_refl _, (List.append_nil _).symm⟩
  | ocspMiss missed may named _ ran =>
    obtain ⟨_, _, _, -, hran, hhits, hmisses, hsize⟩ := OcspCache.check_turns may named missed
    obtain ⟨rfl, hrest⟩ := Prod.mk.inj (ran.symm.trans hran)
    obtain ⟨rfl, hcalls⟩ := Prod.mk.inj hrest
    rw [← List.append_cancel_left hcalls] at hsize
    exact ⟨hhits, hmisses, hsize, rfl, rfl, Nat.le_refl _, by simp [Look.calls]⟩
  | localCrls =>
    exact ⟨rfl, rfl, Nat.le_refl _, rfl, rfl, Nat.le_refl _, (List.append_nil _).symm⟩
  | crlHit found =>
    exact ⟨rfl, rfl, Nat.le_refl _, rfl, rfl, Nat.le_refl _, (List.append_nil _).symm⟩
  | crlMiss missed ran =>
    obtain ⟨_, _, hran, hhits, hmisses, hsize⟩ := CrlCache.checkAt_miss missed
    obtain ⟨rfl, rfl, -⟩ := (ran.symm.trans hran)
    exact ⟨rfl, rfl, Nat.le_refl _, hhits, hmisses, hsize, by simp [Look.calls]⟩

end Look

end PeerTrust
