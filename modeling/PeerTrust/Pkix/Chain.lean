import PeerTrust.Key.Algorithm
import PeerTrust.Pkix.NameConstraints
import PeerTrust.X509.Algorithm

/-!
# Chains to an anchor

A chain begins with the certificate that is presented and leads over issuers to an anchor. It is
searched for upwards, depth first, anchors before presented issuers.

* `SignatureAlgorithm.all` are the signatures that are accepted;
* `Chain.checkAlone` is what a certificate must satisfy wherever the chain leads;
* `Chain.checkBelow` checks the signatures and names of all certificates below an anchor;
* `Chain.search` is the search, `Chain.verify` runs it for a purpose at a time, and
  `Chain.verifyServer` also compares the name of the server.
-/

namespace PeerTrust.Pkix

/-! ## 1. Signatures -/

/-- A signature algorithm, as it is written, with the keys that it is for. -/
structure SignatureAlgorithm where
  signature : Bytes
  key : Bytes
  scheme : X509.SignatureScheme
deriving DecidableEq, Repr, Inhabited

namespace SignatureAlgorithm

open KeyAlgorithm (written nullParameters)

/-- The identifier of the mask generation that salted padding uses. -/
def maskGeneration : Oid := Oid.ofArcs [1, 2, 840, 113549, 1, 1, 8]

/-- The parameters of salted padding with a digest throughout and a salt as long as it. -/
def pssParameters (digest : Oid) (salt : Nat) : Bytes :=
  let sequence := Der.encode Der.tagSequence
  let hash := sequence (written digest ++ nullParameters)
  sequence (Der.encode (Der.tagExplicit 0) hash ++
    Der.encode (Der.tagExplicit 1) (sequence (written maskGeneration ++ hash)) ++
    Der.encode (Der.tagExplicit 2) (Der.encodeNatural salt))

/-- ECDSA with a digest on a curve. -/
def ecdsa (signature curve : Oid) (scheme : X509.SignatureScheme) : SignatureAlgorithm :=
  ⟨written signature, KeyAlgorithm.onCurve curve, scheme⟩

/-- RSA with salted padding. -/
def pss (digest : Oid) (d : Digest) : SignatureAlgorithm :=
  ⟨written Oid.rsaPss ++ pssParameters digest d.length, KeyAlgorithm.rsa, .rsaPss d⟩

/-- RSA with constant padding. -/
def pkcs1 (signature : Oid) (parameters : Bytes) (d : Digest) : SignatureAlgorithm :=
  ⟨written signature ++ parameters, KeyAlgorithm.rsa, .rsaPkcs1 d 2048⟩

/-- All signatures that are accepted. -/
def all : List SignatureAlgorithm := [
  ecdsa Oid.ecdsaWithSha256 Oid.curveP256 (.ecdsaP256 .sha256),
  ecdsa Oid.ecdsaWithSha384 Oid.curveP256 (.ecdsaP256 .sha384),
  ecdsa Oid.ecdsaWithSha256 Oid.curveP384 (.ecdsaP384 .sha256),
  ecdsa Oid.ecdsaWithSha384 Oid.curveP384 (.ecdsaP384 .sha384),
  ⟨KeyAlgorithm.ed25519, KeyAlgorithm.ed25519, .ed25519⟩,
  pss Oid.sha256 .sha256, pss Oid.sha384 .sha384, pss Oid.sha512 .sha512,
  pkcs1 Oid.sha256WithRsa nullParameters .sha256,
  pkcs1 Oid.sha384WithRsa nullParameters .sha384,
  pkcs1 Oid.sha512WithRsa nullParameters .sha512,
  pkcs1 Oid.sha256WithRsa [] .sha256,
  pkcs1 Oid.sha384WithRsa [] .sha384,
  pkcs1 Oid.sha512WithRsa [] .sha512]

/-- The algorithm of a key and its octets. -/
def keyParts : Reader (Bytes × Bytes) := do
  let algorithm ← Reader.field Der.tagSequence
  return (algorithm, ← Reader.bits)

/-- Checks the signature of a certificate under a key. -/
def check (c : Certificate) (key : Bytes) : Except Error Unit := do
  match all.filter (·.signature = c.algorithm) with
  | [] => throw (.unsupportedAlgorithm c.algorithm (all.map (·.signature)))
  | candidates =>
    let (algorithm, octets) ← Reader.whole .trailingData keyParts key
    match candidates.find? (·.key = algorithm) with
    | none => throw (.unsupportedAlgorithmForKey c.algorithm algorithm)
    | some a => if ¬ a.scheme.verify octets c.signed c.signature then throw .badSignature

end SignatureAlgorithm

namespace Chain

/-! ## 2. One certificate -/

/-- Reads a period of validity and compares it with a time. -/
def checkValidity (now : Nat) : Reader Unit := do
  let start ← Reader.time
  let stop ← Reader.time
  if stop < start then throw .reversedValidity
  if now < start then throw (.notYetValid now start)
  if stop < now then throw (.expired now stop)

/-- Checks that a certificate stands where it may: at the end of a chain, or above a number of
other issuers. -/
def checkPosition (issuersBelow : Option Nat) : (isCa : Bool) → (most : Option Nat) →
    Except Error Unit
  | true, most =>
    match issuersBelow, most with
    | none, _ => .error .caAsEndEntity
    | some n, some most => if most < n then .error .pathTooLongForIssuer else .ok ()
    | some _, none => .ok ()
  | false, _ => if issuersBelow.isSome then .error .endEntityAsCa else .ok ()

/-- Reads whether the subject issues certificates, and over how many further issuers at most, and
checks that the certificate stands where it may. -/
def basicConstraints (issuersBelow : Option Nat) : Reader Unit := do
  let isCa ← Reader.flag
  if (← get) = [] then checkPosition issuersBelow isCa none
  else checkPosition issuersBelow isCa (some (← Reader.small))

/-- Looks for a purpose among those that a certificate lists, `seen` being those before; a list of
none does not restrict. `fuel` bounds their number. -/
def findPurpose (p : Purpose) : (fuel : Nat) → (seen : List Oid) → Reader Unit
  | 0, _ => pure ()
  | fuel + 1, seen => do
    if (← get) = [] then
      if seen ≠ [] then throw (.wrongPurpose p seen)
    else
      let o : Oid := ⟨← Reader.field Der.tagOid⟩
      if o = p.oid then set ([] : Bytes) else findPurpose p fuel (seen ++ [o])

/-- Checks what does not depend on where the chain leads. -/
def checkAlone (p : Purpose) (now : Nat) (c : Certificate) (issuersBelow : Option Nat) :
    Except Error Unit := do
  Reader.whole .badEncoding (checkValidity now) c.validity
  match c.basicConstraints with
  | some b => Reader.whole .badEncoding (basicConstraints issuersBelow) b
  | none => checkPosition issuersBelow false none
  match c.purposes with
  | some b => Reader.whole .badEncoding (findPurpose p (b.length + 1) []) b
  | none => return ()

/-! ## 3. A chain below an anchor -/

/-- Checks the signatures of a chain, the highest certificate first, under the key above it. -/
def checkSignatures : (key : Bytes) → List Certificate → Search Unit
  | _, [] => pure ()
  | key, c :: below => do
    Search.spendSignature
    liftExcept (SignatureAlgorithm.check c key)
    checkSignatures c.key below

/-- Checks all names of a chain against constraints. -/
def checkNamesUnder (constraints : Option Bytes) (chain : List Certificate) : Search Unit := do
  match constraints with
  | none => return ()
  | some b =>
    let (n, rest) ← liftExcept (NameConstraints.read b)
    chain.forM n.check
    if rest ≠ [] then throw .badEncoding

/-- Checks the names of a chain, the highest certificate first, against the constraints above. -/
def checkNames : (constraints : Option Bytes) → List Certificate → Search Unit
  | _, [] => pure ()
  | constraints, c :: below => do
    checkNamesUnder constraints (c :: below)
    checkNames c.nameConstraints below

/-- Checks a chain whose highest certificate an anchor may have issued. -/
def checkBelow (chain : List Certificate) (anchor : Anchor) : Search Unit := do
  if (chain.head?.map (·.issuer)) ≠ some anchor.subject then throw .unknownIssuer
  checkSignatures anchor.key chain
  checkNames anchor.nameConstraints chain

/-! ## 4. The search -/

/-- The most issuers that a chain may hold, the anchor not counted. -/
def maxIssuers : Nat := 6

/-- How many issuers stand between a certificate and the end of its chain; nothing at the end. -/
def issuersBelow (below : List Certificate) : Option Nat :=
  if below.length = 0 then none else some (below.length - 1)

/-- The issuer that presented octets are, if it is the next one above a chain. -/
def nextIssuer (head : Certificate) (below : List Certificate) (der : Bytes) :
    Except Error Certificate := do
  let issuer ← Certificate.ofDer der
  if issuer.subject ≠ head.issuer then throw .unknownIssuer
  if (head :: below).any fun c => c.key = issuer.key ∧ c.subject = issuer.subject then
    throw .unknownIssuer
  return issuer

/-- Leads a chain on to an anchor; `room` is the number of issuers that may still be added. -/
def search (p : Purpose) (now : Nat) (anchors : List Anchor) (presented : List Bytes) :
    (room : Nat) → (head : Certificate) → (below : List Certificate) → Search Unit
  | room, head, below => do
    liftExcept (checkAlone p now head (issuersBelow below))
    match ← ExceptT.lift (Search.firstOf (checkBelow (head :: below)) .unknownIssuer anchors).run with
    | .ok () => return ()
    | .error e =>
      if e.endsSearch then throw e
      match room with
      | 0 =>
        Search.firstOf (fun der => do
          let _ ← liftExcept (nextIssuer head below der)
          Search.spendStep
          throw .pathTooDeep) e presented
      | room + 1 =>
        Search.firstOf (fun der => do
          let issuer ← liftExcept (nextIssuer head below der)
          Search.spendStep
          search p now anchors presented room issuer (head :: below)) e presented

/-- The certificate that octets are, if a chain leads from it to an anchor. -/
def verifiedEnd (p : Purpose) (anchors : List Anchor) (endEntity : Bytes) (presented : List Bytes)
    (now : Nat) : Except Error Certificate := do
  let c ← Certificate.ofDer endEntity
  ((search p now anchors presented maxIssuers c []).run.run Work.none).1
  return c

/-- Checks that a chain leads from a certificate over presented issuers to an anchor. -/
def verify (p : Purpose) (anchors : List Anchor) (endEntity : Bytes) (presented : List Bytes)
    (now : Nat) : Except Error Unit := do
  let _ ← verifiedEnd p anchors endEntity presented now

/-- Checks the chain of a server, and that it is the server that is asked for. -/
def verifyServer (server : ServerName) (anchors : List Anchor) (endEntity : Bytes)
    (presented : List Bytes) (now : Nat) : Except Error Unit := do
  (← verifiedEnd .serverAuth anchors endEntity presented now).checkName server

end Chain

end PeerTrust.Pkix
