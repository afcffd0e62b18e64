import PeerTrust.Url

/-!
# What lies outside

Revocation checks ask responders and CRL servers, draw nonces and read the clock. All of that is
one value of type `Outside`, whose answers depend on the calls made before.

* `Call` is one question to a server, with the time allowed for it in seconds;
* `Calls` lists those made so far, in order; every function that may call takes it and gives it
  back, longer by its own calls;
* `Outside.ask` puts a question and records it.
-/

namespace PeerTrust

/-- One question to a server. -/
inductive Call where
  | post (url : Url) (body : Bytes) (timeout : Nat)
  | get (url : Url) (timeout : Nat)
deriving DecidableEq, Repr, Inhabited

/-- Where a question goes. -/
def Call.url : Call → Url
  | post url _ _ => url
  | get url _ => url

/-- The calls made so far, in order. -/
abbrev Calls := List Call

/-- Why nothing came back from the network. -/
inductive NetworkError where
  | invalidCrlUrl (cause : UrlError)
  /-- What the network reports. -/
  | failed (detail : String)
deriving DecidableEq, Repr, Inhabited

/-- The wording of an error. -/
def NetworkError.message : NetworkError → String
  | invalidCrlUrl cause => s!"Invalid CRL URL: {cause.message}"
  | failed detail => detail

/-- The answers from outside, which may depend on all calls made before. -/
structure Outside where
  /-- What a server answers. -/
  reply : Calls → Call → Except NetworkError Bytes
  /-- Sixteen octets that were not drawn before. -/
  nonce : Calls → Bytes
  /-- The seconds since 1970. -/
  clock : Calls → Nat

namespace Outside

/-- Puts a question. -/
def ask (o : Outside) (call : Call) (calls : Calls) : Except NetworkError Bytes × Calls :=
  (o.reply calls call, calls ++ [call])

end Outside

end PeerTrust
