import PeerTrust.Context

/-!
# Handshakes

What a handshake between two contexts comes to. The client verifies the server first, then the
server the client.

* `Handshake.clientIdentity` is the identity that a client presents, if it has any;
* `Handshake.run` gives what both sides learn of each other, or the side that fails and why.
-/

namespace PeerTrust.Handshake

/-- The sides of a handshake. -/
inductive Side where
  | client
  | server
deriving DecidableEq, Repr, Inhabited

/-- The name of a side. -/
def Side.name : Side → String
  | client => "client"
  | server => "server"

/-- The versions of the protocol. -/
inductive Version where
  | tls12
  | tls13
deriving DecidableEq, Repr, Inhabited

/-- The name of a version. -/
def Version.name : Version → String
  | tls12 => "TLSv1_2"
  | tls13 => "TLSv1_3"

/-- How a client comes to a handshake. -/
structure ClientStyle where
  /-- The newest version that it speaks. -/
  newest : Version
  /-- Whether it has no certificate to present. -/
  anonymous : Bool
deriving DecidableEq, Repr, Inhabited

/-- What both sides agree on. -/
structure Outcome where
  version : Version
  serverChain : List Certificate
  clientChain : List Certificate
deriving DecidableEq, Repr, Inhabited

/-- The octets of the leaf of a chain, and those of the certificates above it. -/
def split (chain : List Certificate) : Bytes × List Bytes :=
  ((chain.map (·.der)).headD [], (chain.map (·.der)).tail)

/-- What happens where a side has no identity that the other can verify. -/
def noIdentity : HandshakeError := .general "no server certificate chain resolved"

/-- The client verifies the server, which staples nothing. -/
def clientVerifies (o : Outside) (p : SecurityPolicy) (client : TrustContext)
    (name : Pkix.ServerName) (chain : List Certificate) (calls : Calls) :
    Except HandshakeError Unit × Calls :=
  let (leaf, above) := split chain
  let (result, _, calls) :=
    client.verifier.verifyServer o p name leaf above [] (o.clock calls) client.checker calls
  (result, calls)

/-- The server verifies the client. -/
def serverVerifies (o : Outside) (p : SecurityPolicy) (server : TrustContext)
    (chain : List Certificate) (calls : Calls) : Except HandshakeError Unit × Calls :=
  let (leaf, above) := split chain
  let (result, _, calls) :=
    server.verifier.verifyClient o p leaf above (o.clock calls) server.checker calls
  (result, calls)

/-- The identity that a client presents to a server. -/
def clientIdentity (style : ClientStyle) (server client : TrustContext) : Option Identity :=
  if style.anonymous then none
  else client.keys.forClient server.verifier.hints server.verifier.schemes

/-- A handshake between a client and a server that it asks for by name. -/
def run (o : Outside) (p : SecurityPolicy) (style : ClientStyle) (server client : TrustContext)
    (name : Pkix.ServerName) (calls : Calls) : Except (Side × HandshakeError) Outcome × Calls :=
  match server.keys.forServer client.verifier.schemes with
  | none => (.error (.server, noIdentity), calls)
  | some presented =>
    match clientVerifies o p client name presented.chain calls with
    | (.error e, calls) => (.error (.client, e), calls)
    | (.ok (), calls) =>
      match clientIdentity style server client with
      | none => (.error (.server, .noCertificate), calls)
      | some identity =>
        match serverVerifies o p server identity.chain calls with
        | (.error e, calls) => (.error (.server, e), calls)
        | (.ok (), calls) => (.ok ⟨style.newest, presented.chain, identity.chain⟩, calls)

end PeerTrust.Handshake
