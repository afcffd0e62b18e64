import PeerTrust.Proofs.Results
import PeerTrust.Revocation.Checker

/-!
# What is asked of the network, and what comes back

The calls made so far are a log that only grows. For each function that may call:

* `Calls.ExtendedBy` says that calls of some kind only were added: `OcspCache.check_calls` for
  questions to responders (`OcspCache.Asks`), `CrlCache.check_calls` for downloads
  (`CrlCache.Asks`);
* `Outside.Replied` says that octets came back to one of the calls added:
  `OcspCache.queryEach_eq_ok` and `CrlCache.download_eq_ok` tell so of what they give.
-/

namespace PeerTrust

/-! ## 1. The log -/

/-- A checker of revocation and the calls made so far. -/
abbrev RevocationState := RevocationChecker × Calls

namespace Calls

/-- Only calls of a kind were added. -/
def ExtendedBy (kind : Call → Prop) (before after : Calls) : Prop :=
  ∃ added, after = before ++ added ∧ ∀ call ∈ added, kind call

namespace ExtendedBy

variable {kind : Call → Prop} {first middle last : Calls}

theorem refl (kind : Call → Prop) (calls : Calls) : ExtendedBy kind calls calls :=
  ⟨[], by simp, by simp⟩

theorem single {call : Call} (h : kind call) (calls : Calls) :
    ExtendedBy kind calls (calls ++ [call]) :=
  ⟨[call], rfl, fun _ hc => List.mem_singleton.mp hc ▸ h⟩

theorem trans (h : ExtendedBy kind first middle) (h' : ExtendedBy kind middle last) :
    ExtendedBy kind first last := by
  obtain ⟨added, rfl, hkind⟩ := h
  obtain ⟨added', rfl, hkind'⟩ := h'
  refine ⟨added ++ added', by simp, fun call hcall => ?_⟩
  rcases List.mem_append.mp hcall with hcall | hcall
  · exact hkind call hcall
  · exact hkind' call hcall

theorem isPrefix (h : ExtendedBy kind first last) : first <+: last := by
  obtain ⟨added, rfl, -⟩ := h
  exact List.prefix_append first added

end ExtendedBy

end Calls

namespace Outside

/-- Octets came back to a call that was added to the log. -/
def Replied (o : Outside) (before after : Calls) (b : Bytes) : Prop :=
  ∃ earlier call, before <+: earlier ∧ earlier ++ [call] <+: after ∧ o.reply earlier call = .ok b

theorem Replied.mono {o : Outside} {before before' after after' : Calls} {b : Bytes}
    (h : o.Replied before after b) (hbefore : before' <+: before) (hafter : after <+: after') :
    o.Replied before' after' b := by
  obtain ⟨earlier, call, hfrom, hto, hreply⟩ := h
  exact ⟨earlier, call, hbefore.trans hfrom, hto.trans hafter, hreply⟩

theorem ask_eq {o : Outside} {call : Call} {calls after : Calls} {r : Except NetworkError Bytes}
    (h : o.ask call calls = (r, after)) : o.reply calls call = r ∧ after = calls ++ [call] := by
  cases h
  exact ⟨rfl, rfl⟩

theorem extendedBy_of_ask {o : Outside} {kind : Call → Prop} {call : Call} {calls after : Calls}
    {r : Except NetworkError Bytes} (h : o.ask call calls = (r, after)) (hkind : kind call) :
    calls.ExtendedBy kind after := by
  obtain ⟨-, rfl⟩ := ask_eq h
  exact .single hkind calls

theorem replied_of_ask {o : Outside} {call : Call} {calls after : Calls} {b : Bytes}
    (h : o.ask call calls = (.ok b, after)) : o.Replied calls after b := by
  obtain ⟨hreply, rfl⟩ := ask_eq h
  exact ⟨calls, call, List.prefix_rfl, List.prefix_rfl, hreply⟩

end Outside

/-! ## 2. Responders -/

namespace OcspCache

variable (o : Outside) (cfg : RevocationConfig) (c issuer : Certificate) (now : Nat)

/-- A question to one of the responders of a certificate. -/
def Asks (call : Call) : Prop :=
  ∃ urls url body, responders cfg c = .ok urls ∧ url ∈ urls ∧ call = .post url body cfg.ocspTimeout

theorem query_calls {kind : Call → Prop} {url : Url} (calls : Calls)
    (h : ∀ body, kind (.post url body cfg.ocspTimeout)) :
    calls.ExtendedBy kind (query o cfg url c issuer now calls).2 := by
  simp only [query]
  split
  · exact .refl kind calls
  · split
    · rename_i hask
      exact Outside.extendedBy_of_ask hask (h _)
    · rename_i hask
      exact Outside.extendedBy_of_ask hask (h _)

variable {o cfg c issuer now} in
/-- An answer is what a reply proves, with the nonce of the question. -/
theorem query_eq_ok {url : Url} {calls after : Calls} {a : Ocsp.Answer}
    (h : query o cfg url c issuer now calls = (.ok a, after)) :
    ∃ response, o.Replied calls after response ∧
      Ocsp.evaluate response c issuer (some (o.nonce calls)) now = .ok a := by
  simp only [query] at h
  split at h
  · cases h
  · split at h
    · cases h
    · rename_i response calls₁ hask
      obtain ⟨heval, rfl⟩ := Prod.mk.inj h
      exact ⟨response, Outside.replied_of_ask hask, mapError_eq_ok_iff.mp heval⟩

theorem queryEach_calls {kind : Call → Prop} {urls : List Url} (failed : OcspCacheError)
    (calls : Calls) (h : ∀ url ∈ urls, ∀ body, kind (.post url body cfg.ocspTimeout)) :
    calls.ExtendedBy kind (queryEach o cfg c issuer now failed urls calls).2 := by
  induction urls generalizing failed calls with
  | nil => exact .refl kind calls
  | cons url urls ih =>
    have hfirst := query_calls o cfg c issuer now calls (h url List.mem_cons_self)
    unfold queryEach
    split
    · rename_i hq
      rw [hq] at hfirst
      exact hfirst
    · rename_i hq
      rw [hq] at hfirst
      exact hfirst.trans (ih _ _ fun url' hurl => h url' (List.mem_cons_of_mem url hurl))

variable {o cfg c issuer now} in
theorem queryEach_eq_ok {urls : List Url} {failed : OcspCacheError} {calls after : Calls}
    {a : Ocsp.Answer} (h : queryEach o cfg c issuer now failed urls calls = (.ok a, after)) :
    ∃ response nonce, o.Replied calls after response ∧
      Ocsp.evaluate response c issuer (some nonce) now = .ok a := by
  induction urls generalizing failed calls with
  | nil => cases h
  | cons url urls ih =>
    have hfirst : calls.ExtendedBy (fun _ => True) (query o cfg url c issuer now calls).2 :=
      query_calls o cfg c issuer now calls fun _ => trivial
    unfold queryEach at h
    split at h
    · rename_i hq
      cases h
      obtain ⟨response, hreplied, he⟩ := query_eq_ok hq
      exact ⟨response, _, hreplied, he⟩
    · rename_i hq
      rw [hq] at hfirst
      obtain ⟨response, nonce, hreplied, he⟩ := ih h
      exact ⟨response, nonce, hreplied.mono hfirst.isPrefix List.prefix_rfl, he⟩

theorem check_calls (cache : OcspCache) (calls : Calls) :
    calls.ExtendedBy (Asks cfg c) (check o cfg c issuer now cache calls).2.2 := by
  simp only [check]
  split
  · exact .refl _ calls
  · split
    · exact .refl _ calls
    · rename_i urls hurls
      have heach : calls.ExtendedBy (Asks cfg c)
          (queryEach o cfg c issuer now (.ocsp (.noResponder c.displayName)) urls calls).2 :=
        queryEach_calls o cfg c issuer now _ calls fun url hurl body =>
          ⟨urls, url, body, hurls, hurl, rfl⟩
      split
      · rename_i hq
        rw [hq] at heach
        exact heach
      · rename_i hq
        rw [hq] at heach
        exact heach

end OcspCache

/-! ## 3. CRL servers -/

namespace CrlCache

variable (o : Outside) (cfg : RevocationConfig) (c issuer : Certificate) (now : Nat)

/-- A download from one of the distribution points of a certificate. -/
def Asks (call : Call) : Prop :=
  ∃ text ∈ c.crlUrls, ∃ url, Url.parse text = .ok url ∧ call = .get url cfg.crlTimeout

theorem download_calls {kind : Call → Prop} {text : String} (calls : Calls)
    (h : ∀ url, Url.parse text = .ok url → kind (.get url cfg.crlTimeout)) :
    calls.ExtendedBy kind (download o cfg text calls).2 := by
  simp only [download]
  split
  · exact .refl kind calls
  · rename_i url hurl
    split
    · rename_i hask
      exact Outside.extendedBy_of_ask hask (h url hurl)
    · rename_i hask
      exact Outside.extendedBy_of_ask hask (h url hurl)

variable {o cfg} in
/-- A downloaded CRL is what the reply from its location reads as. -/
theorem download_eq_ok_iff {text : String} {calls after : Calls} {crl : Crl} :
    download o cfg text calls = (.ok crl, after) ↔
      ∃ url content, Url.parse text = .ok url ∧
        o.reply calls (.get url cfg.crlTimeout) = .ok content ∧ Crl.parse content = .ok crl ∧
        after = calls ++ [.get url cfg.crlTimeout] := by
  unfold download Outside.ask
  cases Url.parse text with
  | error e => simp
  | ok url =>
    cases hreply : o.reply calls (.get url cfg.crlTimeout) with
    | error e => simp [hreply]
    | ok content => simp [hreply, mapError_eq_ok_iff, @eq_comm _ _ after]

variable {o cfg} in
theorem download_eq_ok {text : String} {calls after : Calls} {crl : Crl}
    (h : download o cfg text calls = (.ok crl, after)) :
    ∃ content, o.Replied calls after content ∧ Crl.parse content = .ok crl := by
  obtain ⟨url, content, -, hreply, hparse, rfl⟩ := download_eq_ok_iff.mp h
  exact ⟨content, ⟨calls, _, List.prefix_rfl, List.prefix_rfl, hreply⟩, hparse⟩

theorem checkAt_calls {kind : Call → Prop} {text : String} (cache : CrlCache) (calls : Calls)
    (h : ∀ url, Url.parse text = .ok url → kind (.get url cfg.crlTimeout)) :
    calls.ExtendedBy kind (checkAt o cfg text c issuer now cache calls).2.2 := by
  have hdownload := download_calls o cfg calls h
  simp only [checkAt]
  split
  · exact .refl kind calls
  · split
    · rename_i hd
      rw [hd] at hdownload
      exact hdownload
    · rename_i hd
      rw [hd] at hdownload
      split
      · exact hdownload
      · exact hdownload

theorem checkEach_calls {kind : Call → Prop} {texts : List String} (failed : CrlCacheError)
    (cache : CrlCache) (calls : Calls)
    (h : ∀ text ∈ texts, ∀ url, Url.parse text = .ok url → kind (.get url cfg.crlTimeout)) :
    calls.ExtendedBy kind (checkEach o cfg c issuer now failed texts cache calls).2.2 := by
  induction texts generalizing failed cache calls with
  | nil => exact .refl kind calls
  | cons text texts ih =>
    have hfirst := checkAt_calls o cfg c issuer now cache calls (h text List.mem_cons_self)
    unfold checkEach
    split
    · rename_i hc
      rw [hc] at hfirst
      exact hfirst
    · rename_i hc
      rw [hc] at hfirst
      exact hfirst.trans (ih _ _ _ fun text' htext => h text' (List.mem_cons_of_mem text htext))

theorem check_calls (cache : CrlCache) (calls : Calls) :
    calls.ExtendedBy (Asks cfg c) (check o cfg c issuer now cache calls).2.2 :=
  checkEach_calls o cfg c issuer now _ cache calls fun text htext url hurl =>
    ⟨text, htext, url, hurl, rfl⟩

end CrlCache

end PeerTrust
