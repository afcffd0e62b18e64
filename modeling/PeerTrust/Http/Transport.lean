import PeerTrust.Http.Status
import PeerTrust.Revocation.Outside
import PeerTrust.Url.Address

/-!
# Revocation data over HTTP

Responders and CRL servers are asked with one plain request each; redirections are not followed,
and only a complete answer of bounded size counts.

* `Http.Endpoint.ofUrl` and `Http.Request.ofUrl` take from a URL where to connect and what to ask;
* `Http.Network` is what comes of a request, `Http.fetch` what is made of it. `Http.fetchBy` is the
  same by whatever means questions are put;
* `Http.outside` answers the calls of revocation checks that way.
-/

namespace PeerTrust.Http

/-! ## 1. Requests -/

/-- Why nothing is fetched. -/
inductive Error where
  | unsupportedScheme (url : Url)
  | noHost (url : Url)
  | badRequest (url : Url) (detail : String)
  | notConnected (endpoint : String) (detail : String)
  | requestFailed (url : Url) (detail : String)
  | badStatus (url : Url) (status : Nat)
  | bodyFailed (url : Url) (detail : String)
  | emptyBody (url : Url)
  | timedOut (url : Url) (milliseconds : Nat)
deriving DecidableEq, Repr, Inhabited

/-- A span of time: seconds with as many decimals as it takes, or milliseconds. -/
def durationText (milliseconds : Nat) : String :=
  let decimals := (Nat.toDigits 10 (1000 + milliseconds % 1000)).drop 1
  let shown := (decimals.reverse.dropWhile (· = '0')).reverse
  if milliseconds = 0 then "0ns"
  else if milliseconds < 1000 then s!"{milliseconds}ms"
  else toString (milliseconds / 1000) ++ (if shown = [] then "" else "." ++ String.ofList shown) ++ "s"

/-- The wording of an error. -/
def Error.message : Error → String
  | unsupportedScheme url =>
    s!"Unsupported revocation URL scheme '{url.scheme}' in {url.toText}"
  | noHost url => s!"URL without host: {url.toText}"
  | badRequest url detail => s!"Failed to build request for {url.toText}: {detail}"
  | notConnected endpoint detail => s!"Failed to connect to {endpoint}: {detail}"
  | requestFailed url detail => s!"Request to {url.toText} failed: {detail}"
  | badStatus url status => s!"{url.toText} answered with HTTP status {statusText status}"
  | bodyFailed url detail => s!"Failed to read response from {url.toText}: {detail}"
  | emptyBody url => s!"Empty response from {url.toText}"
  | timedOut url milliseconds =>
    s!"Request to {url.toText} timed out after {durationText milliseconds}"

/-- Where a connection goes. -/
structure Endpoint where
  host : Host
  port : Nat
deriving DecidableEq, Repr, Inhabited

/-- The host of an endpoint in messages. -/
def Endpoint.hostText : Host → String
  | .ipv6 pieces => "[" ++ Address.toText (pieces.flatMap (Bytes.ofNat 2)) ++ "]"
  | host => host.toText

/-- An endpoint in messages. -/
def Endpoint.toText (e : Endpoint) : String := s!"{Endpoint.hostText e.host}:{e.port}"

/-- Where the server of a URL is; the port may go without saying. -/
def Endpoint.ofUrl (url : Url) : Except Error Endpoint :=
  match url.host? with
  | some host => .ok ⟨host, (url.port?.or (Url.defaultPort? url.scheme)).getD 80⟩
  | none => .error (.noHost url)

/-- One request. -/
structure Request where
  method : String
  /-- What is asked for, without the server. -/
  target : String
  /-- The server as the request names it. -/
  host : String
  /-- Further headers. -/
  headers : List (String × String)
  body : Bytes
deriving DecidableEq, Repr, Inhabited

namespace Request

/-- The host and the port of a URL, where the latter does not go without saying. -/
def hostHeader (url : Url) : Except Error String :=
  match url.host? with
  | none => .error (.noHost url)
  | some host => .ok (host.toText ++ (url.port?.map fun n => s!":{n}").getD "")

/-- The path of a URL with its query. -/
def targetOf (url : Url) : String := url.path ++ (url.query.map ("?" ++ ·)).getD ""

/-- The octets that a target does not exceed. -/
def maxTarget : Nat := 65534

/-- The headers of a request that brings a body. -/
def bodyHeaders (body : Bytes) : List (String × String) := [
  ("content-type", "application/ocsp-request"), ("accept", "application/ocsp-response"),
  ("content-length", toString body.length)]

/-- The request for a URL: it brings a body, or else asks for what is there. -/
def ofUrl (url : Url) (body : Option Bytes) : Except Error Request := do
  if url.scheme ≠ "http" then throw (.unsupportedScheme url)
  let host ← hostHeader url
  let target := targetOf url
  if maxTarget < target.utf8ByteSize then throw (.badRequest url "uri too long")
  match body with
  | some body => return ⟨"POST", target, host, bodyHeaders body, body⟩
  | none => return ⟨"GET", target, host, [], []⟩

end Request

/-! ## 2. Answers -/

/-- What comes of a request. -/
inductive Exchange where
  /-- There is no connection. -/
  | notConnected (detail : String)
  /-- The connection ends before there is a status. -/
  | failed (detail : String)
  /-- The time is up. -/
  | timedOut
  /-- A status, and the whole body or why it breaks off. -/
  | response (status : Nat) (body : Except String Bytes)
deriving Inhabited

/-- A request that is put to a server, within a time. -/
structure Question where
  endpoint : Endpoint
  request : Request
  milliseconds : Nat
deriving DecidableEq, Repr, Inhabited

/-- What comes of requests, each within a time in milliseconds. -/
structure Network where
  exchange : Endpoint → Request → (milliseconds : Nat) → Exchange

/-- What comes of a question. -/
def Network.put (n : Network) (q : Question) : Exchange :=
  n.exchange q.endpoint q.request q.milliseconds

/-- A network in which no connection comes about. -/
def Network.unreachable (detail : String) : Network := ⟨fun _ _ _ => .notConnected detail⟩

/-- The body of an answer: that of a success, complete, not empty and within bounds. -/
def accept (url : Url) (maxBody : Nat) (status : Nat) (body : Except String Bytes) :
    Except Error Bytes := do
  if status ≠ 200 then throw (.badStatus url status)
  let octets ← body.mapError (.bodyFailed url)
  if maxBody < octets.length then throw (.bodyFailed url "length limit exceeded")
  if octets = [] then throw (.emptyBody url)
  return octets

/-- Asks for a URL and gives the body of the answer; `put` is how a question is put. -/
def fetchBy {m : Type → Type} [Monad m] (put : Question → m Exchange) (maxBody : Nat) (url : Url)
    (body : Option Bytes) (milliseconds : Nat) : ExceptT Error m Bytes := do
  let request ← liftExcept (Request.ofUrl url body)
  let endpoint ← liftExcept (Endpoint.ofUrl url)
  match ← ExceptT.lift (put ⟨endpoint, request, milliseconds⟩) with
  | .notConnected detail => throw (.notConnected endpoint.toText detail)
  | .failed detail => throw (.requestFailed url detail)
  | .timedOut => throw (.timedOut url milliseconds)
  | .response status answer => liftExcept (accept url maxBody status answer)

/-- Asks for a URL over a network. -/
def fetch (n : Network) (maxBody : Nat) (url : Url) (body : Option Bytes) (milliseconds : Nat) :
    Except Error Bytes :=
  Id.run (fetchBy (fun q => pure (n.put q)) maxBody url body milliseconds).run

/-- Answers one call of a revocation check; `put` is how a question is put. -/
def answerBy {m : Type → Type} [Monad m] (put : Question → m Exchange) (maxBody : Nat) :
    Call → ExceptT Error m Bytes
  | .post url body timeout => fetchBy put maxBody url (some body) (1000 * timeout)
  | .get url timeout => fetchBy put maxBody url none (1000 * timeout)

/-- Answers one call over a network. -/
def answer (n : Network) (maxBody : Nat) (call : Call) : Except Error Bytes :=
  Id.run (answerBy (fun q => pure (n.put q)) maxBody call).run

/-- The outside where calls go over a network. -/
def outside (n : Network) (maxBody : Nat) (nonce : Calls → Bytes) (clock : Calls → Nat) :
    Outside where
  reply _ call := (answer n maxBody call).mapError fun e => .failed e.message
  nonce := nonce
  clock := clock

end PeerTrust.Http
