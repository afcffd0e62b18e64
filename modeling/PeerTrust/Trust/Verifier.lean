import PeerTrust.Pkix.Chain
import PeerTrust.Policy
import PeerTrust.Trust.Error
import PeerTrust.Trust.Path

/-!
# Verification of peers

A peer is trusted if its chain leads to an anchor, and if a revocation source vouches for every
certificate on the path to an anchor.

* `TrustAnchor` is an anchor in both forms in which it is needed, `TrustAnchor.ofStore` takes those
  of a store;
* `PeerVerifier.check` verifies a peer: first the chain alone, then the path, then one link after
  the other, the end entity first. Nothing is asked of the network before the chain is accepted;
* `PeerVerifier.validate`, `PeerVerifier.verifyClient` and `PeerVerifier.verifyServer` are its
  uses outside of handshakes and inside.
-/

namespace PeerTrust

/-! ## 1. Anchors -/

/-- A certificate that is trusted, with the anchor that it stands for. -/
structure TrustAnchor where
  certificate : Certificate
  anchor : Pkix.Anchor
deriving DecidableEq, Repr, Inhabited

namespace TrustAnchor

/-- The anchor that a certificate stands for, if it can be one. -/
def ofCertificate? (c : Certificate) : Option TrustAnchor :=
  (Pkix.Anchor.ofDer? c.der).map (⟨c, ·⟩)

/-- The anchors of a store; certificates that cannot be one are passed over. -/
def ofStore (store : CredentialStore) : List TrustAnchor := store.trusted.filterMap ofCertificate?

/-- The name of an anchor, as a handshake hints at it. -/
def name (a : TrustAnchor) : Bytes := Der.encode Der.tagSequence a.anchor.subject

end TrustAnchor

/-! ## 2. Peers -/

/-- On which side of a handshake a peer is. -/
inductive PeerRole where
  | client
  /-- The peer is asked for under a name. -/
  | server (name : Pkix.ServerName)
deriving DecidableEq, Repr, Inhabited

/-- The verifier of peers below some anchors. -/
structure PeerVerifier where
  anchors : List TrustAnchor
deriving DecidableEq, Repr, Inhabited

/-- A result, with the state of revocation checks and the calls after it. -/
abbrev Checked (ε : Type) := Except ε Unit × RevocationChecker × Calls

namespace PeerVerifier

/-- The verifier below the anchors of a store, of which there has to be one. -/
def derive (role : StoreRole) (store : CredentialStore) : Except TrustError PeerVerifier :=
  match TrustAnchor.ofStore store with
  | [] => .error (.noAnchor store.entries.length role)
  | anchors => .ok ⟨anchors⟩

/-- Whether a chain leads to an anchor, revocation left aside. -/
def acceptsChain (v : PeerVerifier) (role : PeerRole) (endEntity : Bytes)
    (intermediates : List Bytes) (now : Nat) : Except Pkix.Error Unit :=
  let anchors := v.anchors.map (·.anchor)
  match role with
  | .client => Pkix.Chain.verify .clientAuth anchors endEntity intermediates now
  | .server name => Pkix.Chain.verifyServer name anchors endEntity intermediates now

/-- The path over which revocation is checked. -/
def path (v : PeerVerifier) (endEntity : Bytes) (intermediates : List Bytes) :
    Except PathError (List Link) :=
  Path.build endEntity intermediates (v.anchors.map (·.certificate))

/-- Asks for one link after the other; a staple is for the first one only. -/
def checkLinks (o : Outside) (p : SecurityPolicy) (now : Nat) :
    (staple : Option Bytes) → List Link → RevocationChecker → Calls → Checked ValidationFailure
  | _, [], k, calls => (.ok (), k, calls)
  | staple, link :: rest, k, calls =>
    match k.check o p.ocspEnabled link.certificate link.issuer staple now calls with
    | (.ok _, k, calls) => checkLinks o p now none rest k calls
    | (.error e, k, calls) => (.error e, k, calls)

/-- Verifies a peer that may present a staple. -/
def check (o : Outside) (p : SecurityPolicy) (v : PeerVerifier) (role : PeerRole)
    (endEntity : Bytes) (intermediates : List Bytes) (staple : Option Bytes) (now : Nat)
    (k : RevocationChecker) (calls : Calls) : Checked ValidationFailure :=
  match v.acceptsChain role endEntity intermediates now with
  | .error e => (.error (.untrusted s!"invalid peer certificate: {e.message}"), k, calls)
  | .ok () =>
    match v.path endEntity intermediates with
    | .error e => (.error (.untrusted e.message), k, calls)
    | .ok links => checkLinks o p now staple links k calls

/-- Verifies a peer outside of a handshake. -/
def validate (o : Outside) (p : SecurityPolicy) (v : PeerVerifier) (role : PeerRole)
    (endEntity : Bytes) (intermediates : List Bytes) (now : Nat) (k : RevocationChecker)
    (calls : Calls) : Checked ValidationFailure :=
  v.check o p role endEntity intermediates none now k calls

/-- Verifies a peer outside of a handshake, now. -/
def validateNow (o : Outside) (p : SecurityPolicy) (v : PeerVerifier) (role : PeerRole)
    (endEntity : Bytes) (intermediates : List Bytes) (k : RevocationChecker) (calls : Calls) :
    Checked TrustError :=
  let (result, k, calls) := v.validate o p role endEntity intermediates (o.clock calls) k calls
  (result.mapError .refused, k, calls)

/-- Verifies a client in a handshake. -/
def verifyClient (o : Outside) (p : SecurityPolicy) (v : PeerVerifier) (endEntity : Bytes)
    (intermediates : List Bytes) (now : Nat) (k : RevocationChecker) (calls : Calls) :
    Checked HandshakeError :=
  let (result, k, calls) := v.check o p .client endEntity intermediates none now k calls
  (result.mapError .ofFailure, k, calls)

/-- Verifies a server in a handshake; a staple that is empty is none. -/
def verifyServer (o : Outside) (p : SecurityPolicy) (v : PeerVerifier) (name : Pkix.ServerName)
    (endEntity : Bytes) (intermediates : List Bytes) (staple : Bytes) (now : Nat)
    (k : RevocationChecker) (calls : Calls) : Checked HandshakeError :=
  let (result, k, calls) :=
    v.check o p (.server name) endEntity intermediates (some staple) now k calls
  (result.mapError .ofFailure, k, calls)

/-- Whether a client is asked for a certificate. -/
def offersClientAuth (_ : PeerVerifier) : Bool := true

/-- Whether a client without a certificate is refused. -/
def requiresClientAuth (_ : PeerVerifier) : Bool := true

/-- The names of the anchors, at which clients are hinted. -/
def hints (v : PeerVerifier) : List Bytes := v.anchors.map (·.name)

/-- The signature schemes by which a peer may prove that it holds its key. -/
def schemes (_ : PeerVerifier) : List SchemeCode :=
  [0x0503, 0x0403, 0x0807, 0x0806, 0x0805, 0x0804, 0x0601, 0x0501, 0x0401]

end PeerVerifier

end PeerTrust
