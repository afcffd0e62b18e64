import PeerTrust.Proofs.KeptAnswers

/-!
# Which responder answers

Where no answer is kept, the responders of a certificate are asked in turn until one gives an answer
that is accepted.

* `OcspCache.MayAsk` are the responders, provided that every location which the certificate names is
  a URL: `OcspCache.exists_mayAsk_iff`;
* `OcspCache.Accepts` is a responder whose reply at its turn is accepted, `OcspCache.Declined` are
  responders of which none gives such a reply: `OcspCache.query_eq_ok_iff`,
  `OcspCache.queryEach_eq_ok_iff`, `OcspCache.queryEach_eq_error_iff`;
* `OcspCache.first_accepted_decides`: a check gives the first answer that is accepted, and fails
  only where there is none; every responder before that one was asked;
* `OcspCache.check_of_unreadable`: a location that is no URL is not passed over, but silences all
  responders of the certificate; `OcspCache.silenced_beside_accepted`: even one whose reply would
  have been accepted.
-/

namespace PeerTrust

namespace OcspCache

/-! ## 1. Responders -/

/-- The responders to ask: the one that is set, or those at the locations that the certificate
names, each of which is a URL. -/
inductive MayAsk (cfg : RevocationConfig) (c : Certificate) : List Url → Prop where
  | configured {url : Url} (isSet : cfg.responder = some url) : MayAsk cfg c [url]
  | named {urls : List Url} (unset : cfg.responder = none)
      (read : c.responderUrls.Forall₂ (fun text url => Url.parse text = .ok url) urls) :
      MayAsk cfg c urls

/-- There are responders to ask exactly if one is set or every location is a URL. -/
theorem exists_mayAsk_iff {cfg : RevocationConfig} {c : Certificate} :
    (∃ urls, MayAsk cfg c urls) ↔
      (cfg.responder = none → ∀ text ∈ c.responderUrls, ∃ url, Url.parse text = .ok url) := by
  constructor
  · rintro ⟨urls, hmay⟩ hunset
    cases hmay with
    | configured isSet => exact nomatch hunset.symm.trans isSet
    | named _ read => exact exists_of_forall₂ read
  · intro h
    cases hset : cfg.responder with
    | some url => exact ⟨[url], .configured hset⟩
    | none =>
      obtain ⟨urls, hread⟩ := exists_forall₂ (h hset)
      exact ⟨urls, .named hset hread⟩

/-- Locations are read one by one. -/
theorem parseUrls_eq_mapM (texts : List String) : parseUrls texts =
    texts.mapM fun text => (Url.parse text).mapError (.invalidUrl text) := by
  induction texts with
  | nil => rfl
  | cons text texts ih =>
    rw [parseUrls, List.mapM_cons, ← ih]
    cases Url.parse text with
    | error e => rfl
    | ok url => cases parseUrls texts <;> rfl

theorem parseUrls_eq_ok_iff {texts : List String} {urls : List Url} :
    parseUrls texts = .ok urls ↔ texts.Forall₂ (fun text url => Url.parse text = .ok url) urls := by
  simp only [parseUrls_eq_mapM, mapM_eq_ok_iff_forall₂, mapError_eq_ok_iff]

/-- The first location that is no URL is what reading locations fails with. -/
theorem parseUrls_eq_error_iff {texts : List String} {e : Ocsp.Error} :
    parseUrls texts = .error e ↔ ∃ before text after cause, texts = before ++ text :: after ∧
      (∀ t ∈ before, ∃ url, Url.parse t = .ok url) ∧ Url.parse text = .error cause ∧
      e = .invalidUrl text cause := by
  simp only [parseUrls_eq_mapM, mapM_eq_error_iff, mapError_eq_ok_iff, mapError_eq_error_iff]
  constructor
  · rintro ⟨before, text, after, htexts, hbefore, cause, hread, rfl⟩
    exact ⟨before, text, after, cause, htexts, hbefore, hread, rfl⟩
  · rintro ⟨before, text, after, cause, htexts, hbefore, hread, rfl⟩
    exact ⟨before, text, after, htexts, hbefore, cause, hread, rfl⟩

/-! ## 2. Turns -/

section Turns

variable (o : Outside) (cfg : RevocationConfig) (c issuer : Certificate) (now : Nat)

/-- The calls once a responder had its turn. No question can be written if the serial number is too
long. -/
def asked (url : Url) (calls : Calls) : Calls :=
  match Ocsp.request? c issuer (o.nonce calls) with
  | none => calls
  | some request => calls ++ [.post url request.encode cfg.ocspTimeout]

/-- A responder whose turn comes after some calls replies with a response that is accepted, and that
states an answer. -/
def Accepts (url : Url) (calls : Calls) (a : Ocsp.Answer) : Prop :=
  ∃ request response, Ocsp.request? c issuer (o.nonce calls) = some request ∧
    o.reply calls (.post url request.encode cfg.ocspTimeout) = .ok response ∧
    Ocsp.evaluate response c issuer (some (o.nonce calls)) now = .ok a

/-- Responders have their turns from some calls to others, and no reply is accepted. -/
inductive Declined : List Url → Calls → Calls → Prop where
  | nil (calls : Calls) : Declined [] calls calls
  | cons {url : Url} {urls : List Url} {calls after : Calls}
      (first : ∀ a, ¬ Accepts o cfg c issuer now url calls a)
      (rest : Declined urls (asked o cfg c issuer url calls) after) :
      Declined (url :: urls) calls after

/-- Responders have their turns from some calls to others, up to the first whose reply is accepted.
-/
def FirstAccepted (urls : List Url) (calls : Calls) (a : Ocsp.Answer) (after : Calls) : Prop :=
  ∃ before url later middle, urls = before ++ url :: later ∧
    Declined o cfg c issuer now before calls middle ∧ Accepts o cfg c issuer now url middle a ∧
    after = asked o cfg c issuer url middle

variable {o cfg c issuer now} {url : Url} {urls : List Url} {calls after : Calls} {a : Ocsp.Answer}
  {failed : OcspCacheError}

theorem query_snd : (query o cfg url c issuer now calls).2 = asked o cfg c issuer url calls := by
  simp only [query, asked]
  cases Ocsp.request? c issuer (o.nonce calls) with
  | none => rfl
  | some request =>
    cases hreply : o.reply calls (.post url request.encode cfg.ocspTimeout) with
    | error e => simp only [Outside.ask, hreply]
    | ok response => simp only [Outside.ask, hreply]

theorem query_fst_eq_ok_iff :
    (query o cfg url c issuer now calls).1 = .ok a ↔ Accepts o cfg c issuer now url calls a := by
  simp only [query, Accepts]
  cases hrequest : Ocsp.request? c issuer (o.nonce calls) with
  | none => simp
  | some request =>
    cases hreply : o.reply calls (.post url request.encode cfg.ocspTimeout) with
    | error e => simp [Outside.ask, hreply]
    | ok response => simp [Outside.ask, hreply, mapError_eq_ok_iff]

/-- A question to a responder succeeds exactly if its reply is accepted. -/
theorem query_eq_ok_iff : query o cfg url c issuer now calls = (.ok a, after) ↔
    Accepts o cfg c issuer now url calls a ∧ after = asked o cfg c issuer url calls := by
  rw [Prod.ext_iff, query_fst_eq_ok_iff, query_snd, eq_comm (a := after)]

theorem query_eq_error_iff : (∃ e, query o cfg url c issuer now calls = (.error e, after)) ↔
    (∀ a, ¬ Accepts o cfg c issuer now url calls a) ∧ after = asked o cfg c issuer url calls := by
  simp only [Prod.ext_iff, ← query_fst_eq_ok_iff, query_snd, eq_comm (a := after)]
  cases (query o cfg url c issuer now calls).1 with
  | error e => simp
  | ok a => simp

/-- **Asking responders fails exactly if no reply is accepted**, and then all had their turns. -/
theorem queryEach_eq_error_iff :
    (∃ e, queryEach o cfg c issuer now failed urls calls = (.error e, after)) ↔
      Declined o cfg c issuer now urls calls after := by
  induction urls generalizing failed calls with
  | nil =>
    constructor
    · rintro ⟨e, h⟩
      obtain ⟨-, rfl⟩ := Prod.mk.inj h
      exact .nil calls
    · intro h
      cases h with
      | nil => exact ⟨failed, rfl⟩
  | cons url urls ih =>
    unfold queryEach
    split
    · rename_i a middle hquery
      obtain ⟨haccepts, -⟩ := query_eq_ok_iff.mp hquery
      constructor
      · rintro ⟨e, h⟩
        cases h
      · intro h
        cases h with
        | cons first _ => exact absurd haccepts (first a)
    · rename_i e middle hquery
      obtain ⟨hnone, rfl⟩ := query_eq_error_iff.mp ⟨e, hquery⟩
      rw [ih]
      constructor
      · exact .cons hnone
      · intro h
        cases h with
        | cons _ rest => exact rest

theorem firstAccepted_cons_iff : FirstAccepted o cfg c issuer now (url :: urls) calls a after ↔
    (Accepts o cfg c issuer now url calls a ∧ after = asked o cfg c issuer url calls) ∨
      ((∀ a', ¬ Accepts o cfg c issuer now url calls a') ∧
        FirstAccepted o cfg c issuer now urls (asked o cfg c issuer url calls) a after) := by
  constructor
  · rintro ⟨before, first, later, middle, hurls, hdeclined, haccepts, hafter⟩
    cases hdeclined with
    | nil =>
      obtain ⟨rfl, rfl⟩ := List.cons_eq_cons.mp hurls
      exact .inl ⟨haccepts, hafter⟩
    | cons hnone rest =>
      obtain ⟨rfl, rfl⟩ := List.cons_eq_cons.mp hurls
      exact .inr ⟨hnone, _, _, later, _, rfl, rest, haccepts, hafter⟩
  · rintro (⟨haccepts, hafter⟩ | ⟨hnone, before, first, later, middle, rfl, rest, haccepts, hafter⟩)
    · exact ⟨[], url, urls, calls, rfl, .nil calls, haccepts, hafter⟩
    · exact ⟨url :: before, first, later, middle, rfl, .cons hnone rest, haccepts, hafter⟩

/-- **Asking responders succeeds exactly with the first reply that is accepted.** -/
theorem queryEach_eq_ok_iff : queryEach o cfg c issuer now failed urls calls = (.ok a, after) ↔
    FirstAccepted o cfg c issuer now urls calls a after := by
  induction urls generalizing failed calls with
  | nil =>
    constructor
    · intro h
      cases h
    · rintro ⟨before, url, later, middle, hurls, -⟩
      simp at hurls
  | cons url urls ih =>
    rw [firstAccepted_cons_iff]
    unfold queryEach
    split
    · rename_i a' middle hquery
      obtain ⟨haccepts, rfl⟩ := query_eq_ok_iff.mp hquery
      constructor
      · intro h
        obtain ⟨ha, rfl⟩ := Prod.mk.inj h
        obtain rfl := Except.ok.inj ha
        exact .inl ⟨haccepts, rfl⟩
      · rintro (⟨haccepts', rfl⟩ | ⟨hnone, -⟩)
        · exact hquery.symm.trans (query_eq_ok_iff.mpr ⟨haccepts', rfl⟩)
        · exact absurd haccepts (hnone a')
    · rename_i e middle hquery
      obtain ⟨hnone, rfl⟩ := query_eq_error_iff.mp ⟨e, hquery⟩
      rw [ih]
      constructor
      · exact fun h => .inr ⟨hnone, h⟩
      · rintro (⟨haccepts, -⟩ | ⟨-, h⟩)
        · exact absurd haccepts (hnone a)
        · exact h

/-! ## 3. Questions in order -/

theorem asked_of_certId {id : Ocsp.CertId} (h : Ocsp.certId? c issuer = some id) :
    asked o cfg c issuer url calls =
      calls ++ [.post url (Ocsp.Request.mk id (o.nonce calls)).encode cfg.ocspTimeout] := by
  simp only [asked, Ocsp.request?, h, Option.map_some]

/-- Responders that are passed over were asked, one after the other. -/
theorem Declined.exists_added {id : Ocsp.CertId} (h : Declined o cfg c issuer now urls calls after)
    (hid : Ocsp.certId? c issuer = some id) :
    ∃ added, after = calls ++ added ∧ added.map Call.url = urls := by
  induction h with
  | nil calls => exact ⟨[], by simp, rfl⟩
  | @cons url urls calls after _ _ ih =>
    obtain ⟨added, hafter, hadded⟩ := ih
    rw [asked_of_certId hid, List.append_assoc] at hafter
    exact ⟨_, hafter, by rw [List.singleton_append, List.map_cons, hadded]; rfl⟩

/-- The responder that decides was asked after those before it, and no other. -/
theorem FirstAccepted.exists_added (h : FirstAccepted o cfg c issuer now urls calls a after) :
    ∃ added, after = calls ++ added ∧ added.map Call.url <+: urls := by
  obtain ⟨before, url, later, middle, rfl, hdeclined, haccepts, rfl⟩ := h
  obtain ⟨request, response, hrequest, -⟩ := haccepts
  obtain ⟨id, hid, -⟩ := Option.map_eq_some_iff.mp hrequest
  obtain ⟨added, rfl, hadded⟩ := hdeclined.exists_added hid
  rw [asked_of_certId hid, List.append_assoc]
  refine ⟨_, rfl, later, ?_⟩
  rw [List.map_append, hadded, List.append_assoc]
  rfl

/-! ## 4. Checks -/

section Checks

variable {cache : OcspCache}

/-- Responders that may be asked are asked, unless none is named. -/
theorem responders_of_mayAsk (may : MayAsk cfg c urls) : responders cfg c = .ok urls ∨
    (urls = [] ∧ responders cfg c = .error (.noResponder c.displayName)) := by
  cases may with
  | configured isSet => exact .inl (by simp only [responders, isSet])
  | named unset read =>
    by_cases hnone : c.responderUrls = []
    · rw [hnone] at read
      exact .inr ⟨List.forall₂_nil_left_iff.mp read, by simp only [responders, unset, if_pos hnone]⟩
    · refine .inl ?_
      rw [← parseUrls_eq_ok_iff] at read
      simp only [responders, unset, if_neg hnone, read]

/-- Where nothing is kept, a check fails as the responders do. -/
theorem check_of_queryEach_error {e : OcspCacheError} (may : MayAsk cfg c urls)
    (miss : cache.live? cfg.ocspLifetime now (.of c issuer) = none)
    (h : queryEach o cfg c issuer now (.ocsp (.noResponder c.displayName)) urls calls =
      (.error e, after)) :
    check o cfg c issuer now cache calls = (.error e, cache.countMiss, after) := by
  rcases responders_of_mayAsk may with hurls | ⟨rfl, hnone⟩
  · simp only [check, miss, hurls, h]
  · -- asking nobody fails in the same way
    cases h
    simp only [check, miss, hnone]

/-- It succeeds as they do. -/
theorem check_of_queryEach_ok (may : MayAsk cfg c urls)
    (miss : cache.live? cfg.ocspLifetime now (.of c issuer) = none)
    (h : queryEach o cfg c issuer now (.ocsp (.noResponder c.displayName)) urls calls =
      (.ok a, after)) :
    check o cfg c issuer now cache calls =
      (.ok a.status, record cfg c issuer now a cache.countMiss, after) := by
  rcases responders_of_mayAsk may with hurls | ⟨rfl, hnone⟩
  · simp only [check, miss, hurls, h]
  · cases h

/-- A check fails exactly if no reply is accepted. It leaves the answers kept as they are then. -/
theorem check_eq_error_iff {cache' : OcspCache} (may : MayAsk cfg c urls)
    (miss : cache.live? cfg.ocspLifetime now (.of c issuer) = none) :
    (∃ e, check o cfg c issuer now cache calls = (.error e, cache', after)) ↔
      Declined o cfg c issuer now urls calls after ∧ cache' = cache.countMiss := by
  rcases hquery : queryEach o cfg c issuer now (.ocsp (.noResponder c.displayName)) urls calls with
    ⟨e | a, after'⟩
  · rw [check_of_queryEach_error may miss hquery]
    constructor
    · rintro ⟨e', h⟩
      cases h
      exact ⟨queryEach_eq_error_iff.mp ⟨e, hquery⟩, rfl⟩
    · rintro ⟨hdeclined, rfl⟩
      obtain ⟨e', hquery'⟩ := queryEach_eq_error_iff.mpr hdeclined
      obtain ⟨-, rfl⟩ := Prod.mk.inj (hquery.symm.trans hquery')
      exact ⟨e, rfl⟩
  · rw [check_of_queryEach_ok may miss hquery]
    constructor
    · rintro ⟨e', h⟩
      cases h
    · rintro ⟨hdeclined, -⟩
      obtain ⟨e', hquery'⟩ := queryEach_eq_error_iff.mpr hdeclined
      cases hquery.symm.trans hquery'

/-- A check succeeds exactly with the status that the first accepted reply states, and records
it. -/
theorem check_eq_ok_iff {cache' : OcspCache} {status : Ocsp.Status} (may : MayAsk cfg c urls)
    (miss : cache.live? cfg.ocspLifetime now (.of c issuer) = none) :
    check o cfg c issuer now cache calls = (.ok status, cache', after) ↔
      ∃ a, FirstAccepted o cfg c issuer now urls calls a after ∧ a.status = status ∧
        cache' = record cfg c issuer now a cache.countMiss := by
  rcases hquery : queryEach o cfg c issuer now (.ocsp (.noResponder c.displayName)) urls calls with
    ⟨e | a, after'⟩
  · rw [check_of_queryEach_error may miss hquery]
    constructor
    · intro h
      cases h
    · rintro ⟨a, hfirst, -⟩
      cases hquery.symm.trans (queryEach_eq_ok_iff.mpr hfirst)
  · rw [check_of_queryEach_ok may miss hquery]
    constructor
    · intro h
      cases h
      exact ⟨a, queryEach_eq_ok_iff.mp hquery, rfl, rfl⟩
    · rintro ⟨a', hfirst, rfl, rfl⟩
      cases hquery.symm.trans (queryEach_eq_ok_iff.mpr hfirst)
      rfl

/-- Responders are asked in order, and all of them before a check fails. -/
theorem check_added {id : Ocsp.CertId} (may : MayAsk cfg c urls)
    (miss : cache.live? cfg.ocspLifetime now (.of c issuer) = none)
    (hid : Ocsp.certId? c issuer = some id) :
    ∃ added, (check o cfg c issuer now cache calls).2.2 = calls ++ added ∧
      added.map Call.url <+: urls ∧
      ((∃ e, (check o cfg c issuer now cache calls).1 = .error e) → added.map Call.url = urls) := by
  rcases hcheck : check o cfg c issuer now cache calls with ⟨e | status, cache', after⟩
  · obtain ⟨hdeclined, -⟩ := (check_eq_error_iff may miss).mp ⟨e, hcheck⟩
    obtain ⟨added, hafter, hadded⟩ := hdeclined.exists_added hid
    exact ⟨added, hafter, hadded ▸ List.prefix_rfl, fun _ => hadded⟩
  · obtain ⟨a, hfirst, -⟩ := (check_eq_ok_iff may miss).mp hcheck
    obtain ⟨added, hafter, hadded⟩ := hfirst.exists_added
    exact ⟨added, hafter, hadded, fun ⟨e, h⟩ => nomatch h⟩

/-- **The first answer that is accepted decides.** Where nothing is kept for a certificate, a check
fails exactly if no responder gives an answer at its turn that is accepted; then the answers kept
stay as they are. Otherwise it gives the first such answer, and records that. Responders have their
turns in order, and those before the one that decides are asked like it, whatever became of the
others. -/
theorem first_accepted_decides (o : Outside) (cfg : RevocationConfig) {c issuer : Certificate}
    {now : Nat} {cache : OcspCache} {calls : Calls} {urls : List Url} (may : MayAsk cfg c urls)
    (miss : cache.live? cfg.ocspLifetime now (.of c issuer) = none) :
    (∀ cache' after, (∃ e, check o cfg c issuer now cache calls = (.error e, cache', after)) ↔
      Declined o cfg c issuer now urls calls after ∧ cache' = cache.countMiss) ∧
    (∀ status cache' after, check o cfg c issuer now cache calls = (.ok status, cache', after) ↔
      ∃ a, FirstAccepted o cfg c issuer now urls calls a after ∧ a.status = status ∧
        cache' = record cfg c issuer now a cache.countMiss) ∧
    ∀ id, Ocsp.certId? c issuer = some id →
      ∃ added, (check o cfg c issuer now cache calls).2.2 = calls ++ added ∧
        added.map Call.url <+: urls ∧
        ((∃ e, (check o cfg c issuer now cache calls).1 = .error e) →
          added.map Call.url = urls) :=
  ⟨fun _ _ => check_eq_error_iff may miss, fun _ _ _ => check_eq_ok_iff may miss,
    fun _ => check_added may miss⟩

/-- **A location that is no URL silences all responders.** Where none is set, nobody is asked. -/
theorem check_of_unreadable {before after : List String} {text : String} {cause : UrlError}
    (unset : cfg.responder = none) (named : c.responderUrls = before ++ text :: after)
    (readable : ∀ t ∈ before, ∃ url, Url.parse t = .ok url)
    (unreadable : Url.parse text = .error cause)
    (miss : cache.live? cfg.ocspLifetime now (.of c issuer) = none) :
    check o cfg c issuer now cache calls =
      (.error (.ocsp (.invalidUrl text cause)), cache.countMiss, calls) := by
  have hparsed : parseUrls c.responderUrls = .error (.invalidUrl text cause) :=
    parseUrls_eq_error_iff.mpr ⟨before, text, after, cause, named, readable, unreadable, rfl⟩
  have hsome : c.responderUrls ≠ [] := by simp [named]
  simp only [check, miss, responders, unset, if_neg hsome, hparsed]

end Checks

end Turns

end OcspCache

/-! ## 5. A responder that is not the first -/

namespace AnswerSample

/-- The fifth certificate of the root, naming responders at some locations. -/
def pointing (texts : List String) : Certificate := { alice with responderUrls := texts }

def first : Url := ⟨"ldap", none, "first", none, none⟩

def second : Url := ⟨"ldap", none, "second", none, none⟩

/-- A network in which only the second responder replies. -/
def onlySecond : Outside where
  reply _ call :=
    if call.url = second then .ok (octets good) else .error (.failed "URL unreachable")
  nonce _ := []
  clock _ := 0

/-- The response is about the certificate wherever its responders are, and no nonce is in it. -/
theorem evaluate_pointing (texts : List String) (nonce : Bytes) :
    Ocsp.evaluate (octets good) (pointing texts) root (some nonce) now =
      .ok ⟨.good, some 1706745600⟩ := by
  obtain ⟨d, hauthentic, hanswer⟩ := Ocsp.evaluate_eq_ok.mp evaluate_good
  obtain ⟨r, hr, rfl⟩ := Ocsp.authenticate_eq_ok_iff.mp hauthentic
  obtain rfl : good = r :=
    Except.ok.inj (decode_good.symm.trans (Ocsp.decode_eq_ok_iff.mpr hr.decodes))
  have hstates : Ocsp.States good.data (pointing texts) root (some nonce) now
      ⟨.good, some 1706745600⟩ := by
    refine ⟨fun asked x _ hfirst => absurd hfirst.mem List.not_mem_nil, ?_⟩
    exact (Ocsp.answer_eq_ok_iff.mp hanswer).statement
  exact Ocsp.evaluate_eq_ok.mpr ⟨_, hauthentic, Ocsp.answer_eq_ok_iff.mpr hstates⟩

theorem reply_second (calls : Calls) (body : Bytes) (timeout : Nat) :
    onlySecond.reply calls (.post second body timeout) = .ok (octets good) := by
  simp only [onlySecond, Call.url, if_true]

theorem reply_first (calls : Calls) (body : Bytes) (timeout : Nat) :
    onlySecond.reply calls (.post first body timeout) = .error (.failed "URL unreachable") := by
  have hne : first ≠ second := by decide
  simp only [onlySecond, Call.url]
  exact if_neg hne

open OcspCache in
theorem accepts_second (texts : List String) (calls : Calls) :
    Accepts onlySecond .standard (pointing texts) root now second calls
      ⟨.good, some 1706745600⟩ := by
  obtain ⟨request, hrequest⟩ : ∃ request, Ocsp.request? (pointing texts) root [] = some request :=
    ⟨_, rfl⟩
  exact ⟨request, octets good, hrequest, reply_second _ _ _, evaluate_pointing texts []⟩

open OcspCache in
theorem not_accepts_first (texts : List String) (calls : Calls) (a : Ocsp.Answer) :
    ¬ Accepts onlySecond .standard (pointing texts) root now first calls a := by
  rintro ⟨request, response, -, hreply, -⟩
  exact nomatch hreply.symm.trans (reply_first _ _ _)

end AnswerSample

open AnswerSample in
theorem OcspCache.second_accepted_decides :
    let c := pointing ["ldap:first", "ldap:second"]
    MayAsk .standard c [first, second] ∧
      Cache.empty.live? RevocationConfig.standard.ocspLifetime now (OcspKey.of c root) =
        (none : Option (Kept Ocsp.Status)) ∧
      ∃ cache' after, check onlySecond .standard c root now .empty [] =
        (.ok .good, cache', after) := by
  have hmay : MayAsk .standard (pointing ["ldap:first", "ldap:second"]) [first, second] :=
    .named rfl (.cons rfl (.cons rfl .nil))
  have hmiss : (Cache.empty : OcspCache).live? RevocationConfig.standard.ocspLifetime now
      (.of (pointing ["ldap:first", "ldap:second"]) root) = none := rfl
  have hdeclined : Declined onlySecond .standard (pointing ["ldap:first", "ldap:second"]) root now
      [first] [] _ := .cons (not_accepts_first _ _) (.nil _)
  have hfirst : FirstAccepted onlySecond .standard (pointing ["ldap:first", "ldap:second"]) root now
      [first, second] [] ⟨.good, some 1706745600⟩ _ :=
    ⟨[first], second, [], _, rfl, hdeclined, accepts_second _ _, rfl⟩
  obtain ⟨-, hok, -⟩ := first_accepted_decides onlySecond .standard hmay hmiss
  exact ⟨hmay, hmiss, _, _, (hok .good _ _).mpr ⟨_, hfirst, rfl, rfl⟩⟩

open AnswerSample in
theorem OcspCache.silenced_beside_accepted :
    let c := pointing ["http://", "ldap:second"]
    Url.parse "ldap:second" = .ok second ∧
      (∀ calls, Accepts onlySecond .standard c root now second calls ⟨.good, some 1706745600⟩) ∧
      check onlySecond .standard c root now .empty [] =
        (.error (.ocsp (.invalidUrl "http://" .emptyHost)), Cache.empty.countMiss, []) := by
  refine ⟨rfl, accepts_second _, check_of_unreadable rfl (List.nil_append _).symm ?_ ?_ rfl⟩
  · exact fun _ hmem => absurd hmem List.not_mem_nil
  · decide +kernel

end PeerTrust
