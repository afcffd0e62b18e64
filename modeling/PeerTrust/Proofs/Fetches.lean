import PeerTrust.Http.Transport
import PeerTrust.Proofs.Results

/-!
# What is taken from the network

A fetch puts one question, and takes nothing but a complete answer of bounded size.

* `Http.Asks` is the question that a URL leads to, `Http.Unasked` is why there is none:
  `Http.unasked_or_asks`;
* `Http.Complete` is an answer that is taken, `Http.Refuses` says why any other is not:
  `Http.judge_eq_ok_iff`, `Http.judge_eq_error_iff`;
* `Http.fetchBy_of_asks` and `Http.fetchBy_of_unasked` say all that a fetch does, by whatever means
  questions are put: it puts its question and judges the answer, or puts none;
* `Http.Network.logged` writes down the questions that are put, `Http.transcript` is what a call
  comes to with the log: `Http.transcript_of_asks`, `Http.transcript_of_unasked`;
* `Http.fetch_accepts_complete` puts these together: at most one question is in the log, and nothing
  depends on what the network would say to any other. A redirection is an error like every other
  status.
-/

namespace PeerTrust.Http

/-! ## 1. The question -/

/-- A URL leads to a request, and to the server that it is put to. -/
structure Asks (url : Url) (body : Option Bytes) (endpoint : Endpoint) (request : Request) :
    Prop where
  request : Request.ofUrl url body = .ok request
  endpoint : Endpoint.ofUrl url = .ok endpoint

/-- Why a URL leads to no request. -/
inductive Unasked (url : Url) : Error → Prop where
  | scheme (other : url.scheme ≠ "http") : Unasked url (.unsupportedScheme url)
  | host (http : url.scheme = "http") (absent : url.host? = none) : Unasked url (.noHost url)
  | target {host : Host} (http : url.scheme = "http") (present : url.host? = some host)
      (long : 65534 < (Request.targetOf url).utf8ByteSize) :
      Unasked url (.badRequest url "uri too long")

section Questions

variable {url : Url} {body : Option Bytes} {endpoint : Endpoint} {request : Request} {e : Error}

theorem ofUrl_of_unasked (h : Unasked url e) (body : Option Bytes) :
    Request.ofUrl url body = .error e := by
  cases h with
  | scheme other =>
    rw [Request.ofUrl, if_pos other]
    rfl
  | host http absent =>
    simp only [Request.ofUrl, Request.hostHeader, http, absent]
    rfl
  | target http present long =>
    have hlong : Request.maxTarget < (Request.targetOf url).utf8ByteSize := long
    simp only [Request.ofUrl, Request.hostHeader, http, present, hlong]
    rfl

/-- The request of a URL of the right scheme, with a host and a target that is not too long. -/
theorem exists_ofUrl {host : Host} (http : url.scheme = "http") (present : url.host? = some host)
    (short : (Request.targetOf url).utf8ByteSize ≤ 65534) (body : Option Bytes) :
    ∃ request, Request.ofUrl url body = .ok request := by
  have hshort : ¬ Request.maxTarget < (Request.targetOf url).utf8ByteSize := Nat.not_lt.mpr short
  simp only [Request.ofUrl, Request.hostHeader, http, present, hshort]
  cases body with
  | none => exact ⟨_, rfl⟩
  | some body => exact ⟨_, rfl⟩

theorem exists_endpoint {host : Host} (present : url.host? = some host) :
    ∃ endpoint, Endpoint.ofUrl url = .ok endpoint := by
  rw [Endpoint.ofUrl, present]
  exact ⟨_, rfl⟩

/-- Every URL leads to a question, or there is a reason why it does not. -/
theorem unasked_or_asks (url : Url) (body : Option Bytes) :
    (∃ e, Unasked url e) ∨ ∃ endpoint request, Asks url body endpoint request := by
  by_cases http : url.scheme = "http"
  · cases present : url.host? with
    | none => exact .inl ⟨_, .host http present⟩
    | some host =>
      by_cases short : (Request.targetOf url).utf8ByteSize ≤ 65534
      · obtain ⟨request, hrequest⟩ := exists_ofUrl http present short body
        obtain ⟨endpoint, hendpoint⟩ := exists_endpoint present
        exact .inr ⟨endpoint, request, hrequest, hendpoint⟩
      · exact .inl ⟨_, .target http present (Nat.not_le.mp short)⟩
  · exact .inl ⟨_, .scheme http⟩

end Questions

/-! ## 2. The answer -/

/-- An answer that is taken: a success with a whole body, which is not empty and within bounds. -/
structure Complete (maxBody : Nat) (b : Bytes) (x : Exchange) : Prop where
  whole : x = .response 200 (.ok b)
  nonempty : 1 ≤ b.length
  bounded : b.length ≤ maxBody

/-- Why any other answer is not taken. -/
inductive Refuses (maxBody : Nat) (url : Url) (endpoint : Endpoint) (milliseconds : Nat) :
    Exchange → Error → Prop where
  | notConnected {detail : String} : Refuses maxBody url endpoint milliseconds
      (.notConnected detail) (.notConnected endpoint.toText detail)
  | failed {detail : String} : Refuses maxBody url endpoint milliseconds
      (.failed detail) (.requestFailed url detail)
  | timedOut : Refuses maxBody url endpoint milliseconds .timedOut (.timedOut url milliseconds)
  /-- Any other status, of a redirection too, whatever comes with it. -/
  | status {status : Nat} {body : Except String Bytes} (other : status ≠ 200) :
      Refuses maxBody url endpoint milliseconds (.response status body) (.badStatus url status)
  | truncated {detail : String} : Refuses maxBody url endpoint milliseconds
      (.response 200 (.error detail)) (.bodyFailed url detail)
  | tooLong {b : Bytes} (long : maxBody < b.length) : Refuses maxBody url endpoint milliseconds
      (.response 200 (.ok b)) (.bodyFailed url "length limit exceeded")
  | empty : Refuses maxBody url endpoint milliseconds (.response 200 (.ok [])) (.emptyBody url)

section Answers

variable {maxBody milliseconds : Nat} {url : Url} {body : Option Bytes} {endpoint : Endpoint}
  {request : Request} {b : Bytes} {e : Error} {x : Exchange}

/-- What is made of an answer, apart from the question. -/
def judge (maxBody : Nat) (url : Url) (endpoint : Endpoint) (milliseconds : Nat) :
    Exchange → Except Error Bytes
  | .notConnected detail => .error (.notConnected endpoint.toText detail)
  | .failed detail => .error (.requestFailed url detail)
  | .timedOut => .error (.timedOut url milliseconds)
  | .response status answer => accept url maxBody status answer

theorem accept_of_status {status : Nat} (other : status ≠ 200) (answer : Except String Bytes) :
    accept url maxBody status answer = .error (.badStatus url status) := by
  rw [accept, if_pos other]
  rfl

/-- A success is taken unless its body is too long or empty. -/
theorem accept_success (url : Url) (maxBody : Nat) (b : Bytes) :
    accept url maxBody 200 (.ok b) =
      if maxBody < b.length then .error (.bodyFailed url "length limit exceeded")
      else if b = [] then .error (.emptyBody url) else .ok b := by
  rw [accept, if_neg (not_not.mpr rfl), mapError_ok]
  simp only [bind, Except.bind]
  by_cases hlong : maxBody < b.length
  · rw [if_pos hlong, if_pos hlong]
    rfl
  · rw [if_neg hlong, if_neg hlong]
    by_cases hempty : b = []
    · rw [if_pos hempty, if_pos hempty]
      rfl
    · rw [if_neg hempty, if_neg hempty]
      rfl

theorem judge_of_complete (h : Complete maxBody b x) :
    judge maxBody url endpoint milliseconds x = .ok b := by
  obtain ⟨rfl, hnonempty, hbounded⟩ := h
  rw [judge, accept_success, if_neg (Nat.not_lt.mpr hbounded),
    if_neg (List.length_pos_iff.mp hnonempty)]

theorem judge_of_refuses (h : Refuses maxBody url endpoint milliseconds x e) :
    judge maxBody url endpoint milliseconds x = .error e := by
  cases h with
  | notConnected => rfl
  | failed => rfl
  | timedOut => rfl
  | status other => exact accept_of_status other _
  | truncated => rfl
  | tooLong long => rw [judge, accept_success, if_pos long]
  | empty =>
    have hnone : ¬ maxBody < ([] : Bytes).length := Nat.not_lt_zero maxBody
    rw [judge, accept_success, if_neg hnone, if_pos rfl]

/-- An answer is taken, or there is a reason why it is not. -/
theorem complete_or_refuses (maxBody : Nat) (url : Url) (endpoint : Endpoint) (milliseconds : Nat)
    (x : Exchange) :
    (∃ b, Complete maxBody b x) ∨ ∃ e, Refuses maxBody url endpoint milliseconds x e := by
  cases x with
  | notConnected detail => exact .inr ⟨_, .notConnected⟩
  | failed detail => exact .inr ⟨_, .failed⟩
  | timedOut => exact .inr ⟨_, .timedOut⟩
  | response status answer =>
    by_cases hstatus : status = 200
    · subst hstatus
      cases answer with
      | error detail => exact .inr ⟨_, .truncated⟩
      | ok b =>
        by_cases hlong : maxBody < b.length
        · exact .inr ⟨_, .tooLong hlong⟩
        · cases b with
          | nil => exact .inr ⟨_, .empty⟩
          | cons first rest =>
            exact .inl ⟨_, rfl, Nat.le_add_left 1 rest.length, Nat.not_lt.mp hlong⟩
    · exact .inr ⟨_, .status hstatus⟩

theorem judge_eq_ok_iff :
    judge maxBody url endpoint milliseconds x = .ok b ↔ Complete maxBody b x := by
  refine ⟨fun h => ?_, judge_of_complete⟩
  rcases complete_or_refuses maxBody url endpoint milliseconds x with ⟨b', hb'⟩ | ⟨e, he⟩
  · obtain rfl : b' = b := Except.ok.inj ((judge_of_complete hb').symm.trans h)
    exact hb'
  · cases (judge_of_refuses he).symm.trans h

theorem judge_eq_error_iff : judge maxBody url endpoint milliseconds x = .error e ↔
    Refuses maxBody url endpoint milliseconds x e := by
  refine ⟨fun h => ?_, judge_of_refuses⟩
  rcases complete_or_refuses maxBody url endpoint milliseconds x with ⟨b, hb⟩ | ⟨e', he'⟩
  · cases (judge_of_complete hb).symm.trans h
  · obtain rfl : e' = e := Except.error.inj ((judge_of_refuses he').symm.trans h)
    exact he'

end Answers

/-! ## 3. What a fetch does -/

section Means

variable {m : Type → Type} [Monad m] {maxBody milliseconds : Nat} {url : Url}
  {body : Option Bytes} {endpoint : Endpoint} {request : Request} {e : Error}

theorem run_liftExcept {α ε : Type} (x : Except ε α) :
    ExceptT.run (m := m) (liftExcept x) = pure x := by
  cases x <;> rfl

variable [LawfulMonad m]

/-- **A fetch puts its question once and judges the answer**, by whatever means questions are
put. -/
theorem fetchBy_of_asks (h : Asks url body endpoint request) (put : Question → m Exchange) :
    (fetchBy put maxBody url body milliseconds).run =
      judge maxBody url endpoint milliseconds <$> put ⟨endpoint, request, milliseconds⟩ := by
  rw [fetchBy, h.request, h.endpoint]
  simp only [run_liftExcept, pure_bind, ExceptT.run_bind, ExceptT.run_lift, bind_map_left]
  rw [map_eq_pure_bind]
  congr 1
  funext x
  cases x with
  | response status answer => exact run_liftExcept (accept url maxBody status answer)
  | _ => rfl

/-- It puts none for a URL that leads to none. -/
theorem fetchBy_of_unasked (h : Unasked url e) (put : Question → m Exchange) :
    (fetchBy put maxBody url body milliseconds).run = pure (.error e) := by
  rw [fetchBy, ofUrl_of_unasked h body, ExceptT.run_bind, run_liftExcept, pure_bind]

theorem fetch_of_unasked (h : Unasked url e) (n : Network) :
    fetch n maxBody url body milliseconds = .error e := by
  rw [fetch, fetchBy_of_unasked h]
  rfl

end Means

/-! ## 4. Calls of revocation checks -/

/-- What a call brings. -/
def bodyOf : Call → Option Bytes
  | .post _ body _ => some body
  | .get _ _ => none

/-- The seconds that a call may take. -/
def timeoutOf : Call → Nat
  | .post _ _ timeout => timeout
  | .get _ timeout => timeout

theorem answerBy_eq {m : Type → Type} [Monad m] (put : Question → m Exchange) (maxBody : Nat)
    (call : Call) :
    answerBy put maxBody call =
      fetchBy put maxBody call.url (bodyOf call) (1000 * timeoutOf call) := by
  cases call <;> rfl

/-- A network that keeps a log of the questions put to it. -/
def Network.logged (n : Network) (q : Question) : StateM (List Question) Exchange :=
  modifyGet fun log => (n.put q, log ++ [q])

/-- What a call comes to over a network, and the questions that are put for it. -/
def transcript (n : Network) (maxBody : Nat) (call : Call) : Except Error Bytes × List Question :=
  Id.run ((answerBy n.logged maxBody call).run.run [])

section Transcripts

variable {maxBody : Nat} {call : Call} {endpoint : Endpoint} {request : Request} {e : Error}

theorem transcript_of_asks (h : Asks call.url (bodyOf call) endpoint request) (n : Network) :
    transcript n maxBody call =
      (judge maxBody call.url endpoint (1000 * timeoutOf call)
          (n.exchange endpoint request (1000 * timeoutOf call)),
        [⟨endpoint, request, 1000 * timeoutOf call⟩]) := by
  rw [transcript, answerBy_eq, fetchBy_of_asks h]
  rfl

theorem transcript_of_unasked (h : Unasked call.url e) (n : Network) :
    transcript n maxBody call = (.error e, []) := by
  rw [transcript, answerBy_eq, fetchBy_of_unasked h]
  rfl

/-- The log makes no difference to what a call comes to. -/
theorem transcript_fst (n : Network) (maxBody : Nat) (call : Call) :
    (transcript n maxBody call).1 = answer n maxBody call := by
  rw [answer, answerBy_eq]
  rcases unasked_or_asks call.url (bodyOf call) with ⟨e, hunasked⟩ | ⟨endpoint, request, hasks⟩
  · rw [transcript_of_unasked hunasked, fetchBy_of_unasked hunasked]
    rfl
  · rw [transcript_of_asks hasks, fetchBy_of_asks hasks]
    rfl

theorem reply_eq (n : Network) (maxBody : Nat) (nonce : Calls → Bytes) (clock : Calls → Nat)
    (calls : Calls) (call : Call) :
    (outside n maxBody nonce clock).reply calls call =
      (transcript n maxBody call).1.mapError fun e => .failed e.message := by
  rw [transcript_fst]
  rfl

end Transcripts

/-- **A fetch takes exactly a complete, bounded success.** It puts at most one question, in whatever
state the caller is. A call whose URL is of another scheme, lacks a host or has a target that is too
long puts none and fails over every network alike. Any other puts exactly one, and gives octets
exactly where they are the whole body of a success that comes in time, at least one and no more than
the bound; whatever else the network answers is a network error that says why. Two networks that
answer this question alike are not told apart. -/
theorem fetch_accepts_complete (maxBody : Nat) (call : Call) :
    (∀ n nonce clock calls, (outside n maxBody nonce clock).reply calls call =
      (transcript n maxBody call).1.mapError fun e => .failed e.message) ∧
    ((∃ e, Unasked call.url e ∧ ∀ n nonce clock calls, (transcript n maxBody call).2 = [] ∧
      (outside n maxBody nonce clock).reply calls call = .error (.failed e.message)) ∨
    ∃ endpoint request, Asks call.url (bodyOf call) endpoint request ∧ ∀ n nonce clock calls,
      (transcript n maxBody call).2 = [⟨endpoint, request, 1000 * timeoutOf call⟩] ∧
      (∀ b, (outside n maxBody nonce clock).reply calls call = .ok b ↔
        Complete maxBody b (n.exchange endpoint request (1000 * timeoutOf call))) ∧
      (∀ e, (outside n maxBody nonce clock).reply calls call = .error e ↔
        ∃ why, Refuses maxBody call.url endpoint (1000 * timeoutOf call)
          (n.exchange endpoint request (1000 * timeoutOf call)) why ∧ e = .failed why.message) ∧
      ∀ n' : Network, n'.exchange endpoint request (1000 * timeoutOf call) =
          n.exchange endpoint request (1000 * timeoutOf call) →
        (outside n' maxBody nonce clock).reply calls call =
          (outside n maxBody nonce clock).reply calls call) := by
  refine ⟨fun n nonce clock calls => reply_eq n maxBody nonce clock calls call, ?_⟩
  rcases unasked_or_asks call.url (bodyOf call) with
    ⟨e, hunasked⟩ | ⟨endpoint, request, hasks⟩
  · refine .inl ⟨e, hunasked, fun n nonce clock calls => ?_⟩
    rw [reply_eq, transcript_of_unasked hunasked]
    exact ⟨rfl, rfl⟩
  · refine .inr ⟨endpoint, request, hasks, fun n nonce clock calls => ⟨?_, fun b => ?_, fun e => ?_,
      fun n' hsame => ?_⟩⟩
    · rw [transcript_of_asks hasks]
    · rw [reply_eq, transcript_of_asks hasks, mapError_eq_ok_iff, judge_eq_ok_iff]
    · rw [reply_eq, transcript_of_asks hasks, mapError_eq_error_iff]
      exact exists_congr fun why => and_congr judge_eq_error_iff eq_comm
    · rw [reply_eq, reply_eq, transcript_of_asks hasks, transcript_of_asks hasks, hsame]

end PeerTrust.Http
