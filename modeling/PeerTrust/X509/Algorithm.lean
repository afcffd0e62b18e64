import PeerTrust.Asn1.Element
import PeerTrust.Signature.Ecdsa
import PeerTrust.Signature.Ed25519
import PeerTrust.Signature.Rsa

/-!
# Algorithm identifiers, public keys and the signatures of certificates and CRLs

* `AlgorithmIdentifier` is an identifier with its parameters, `PublicKey` one with key octets;
* `SignatureScheme` says how a signature is checked; `AlgorithmIdentifier.scheme?` chooses it from
  the identifier of the signature and, for elliptic curves, from the parameters of the key;
* `PublicKey.verify` checks a signature of signed octets and tells a signature that does not
  verify from one that cannot be checked.
-/

namespace PeerTrust.X509

open Asn1

/-! ## 1. Algorithm identifiers and keys -/

/-- An algorithm and its parameters. -/
structure AlgorithmIdentifier where
  oid : Oid
  parameters : Option Element
deriving DecidableEq, Repr, Inhabited

/-- A public key: its algorithm and the octets of the key. -/
structure PublicKey where
  algorithm : AlgorithmIdentifier
  key : Bytes
deriving DecidableEq, Repr, Inhabited

/-- Parameters at the front of a string: octets that do not begin an element are left alone, an
element that is cut short is an error. -/
def parameters? (b : Bytes) : Option (Option Element × Bytes) :=
  match Element.readHeader? b with
  | none => some (none, b)
  | some _ => (Element.read? b).map fun (e, rest) => (some e, rest)

/-- The algorithm inside a sequence. -/
def AlgorithmIdentifier.ofContent? (content : Bytes) : Option AlgorithmIdentifier :=
  match Element.oid? content with
  | none => none
  | some (oid, rest) => (parameters? rest).map fun (p, _) => ⟨oid, p⟩

/-- Reads an algorithm identifier. -/
def AlgorithmIdentifier.read? (b : Bytes) : Option (AlgorithmIdentifier × Bytes) :=
  match Element.sequence? b with
  | none => none
  | some (e, rest) => (ofContent? e.content).map (·, rest)

/-- Reads a public key. -/
def PublicKey.read? (b : Bytes) : Option (PublicKey × Bytes) :=
  match Element.sequence? b with
  | none => none
  | some (e, rest) =>
    match AlgorithmIdentifier.read? e.content with
    | none => none
    | some (algorithm, rest') =>
      (Element.bits? rest').map fun (key, _) => (⟨algorithm, key⟩, rest)

/-! ## 2. Signature schemes -/

/-- A way to check a signature. -/
inductive SignatureScheme where
  /-- RSA with constant padding and a least size of the modulus in bits. -/
  | rsaPkcs1 (digest : Digest) (minBits : Nat)
  /-- RSA with salted padding. -/
  | rsaPss (digest : Digest)
  | ecdsaP256 (digest : Digest)
  | ecdsaP384 (digest : Digest)
  | ed25519
deriving DecidableEq, Repr, Inhabited

/-- Whether a signature of a message verifies under the octets of a key. -/
def SignatureScheme.verify (s : SignatureScheme) (key message signature : Bytes) : Bool :=
  match s with
  | rsaPkcs1 d minBits => Rsa.verifyPkcs1 d minBits key message signature
  | rsaPss d => Rsa.verifyPss d key message signature
  | ecdsaP256 d => Ecdsa.verify Weierstrass.p256 d key message signature
  | ecdsaP384 d => Ecdsa.verify Weierstrass.p384 d key message signature
  | ed25519 => Ed25519.verify key message signature

/-- The digest of salted RSA padding, named by the first of its parameters. -/
def pssDigest? (parameters : Option Element) : Option Digest := do
  let e ← parameters
  if e.number ≠ 16 then none
  else
    let (hash, _) ← Element.tagged? 0 e.content
    let (algorithm, _) ← AlgorithmIdentifier.read? (← hash)
    if algorithm.oid = Oid.sha256 then some .sha256
    else if algorithm.oid = Oid.sha384 then some .sha384
    else if algorithm.oid = Oid.sha512 then some .sha512
    else none

/-- The scheme of ECDSA with a digest, on the curve that the parameters of the key name. -/
def ecdsaScheme? (d : Digest) (key : AlgorithmIdentifier) : Option SignatureScheme := do
  let curve ← key.parameters
  if curve.number ≠ 6 then none
  else if curve.content = Oid.curveP256.octets then some (.ecdsaP256 d)
  else if curve.content = Oid.curveP384.octets then some (.ecdsaP384 d)
  else none

/-- The scheme that a signature algorithm names, for a key of the given algorithm. -/
def AlgorithmIdentifier.scheme? (signature key : AlgorithmIdentifier) : Option SignatureScheme :=
  let o := signature.oid
  if o = Oid.sha1WithRsa ∨ o = Oid.sha1WithRsaSignature then some (.rsaPkcs1 .sha1 1024)
  else if o = Oid.sha256WithRsa then some (.rsaPkcs1 .sha256 2048)
  else if o = Oid.sha384WithRsa then some (.rsaPkcs1 .sha384 2048)
  else if o = Oid.sha512WithRsa then some (.rsaPkcs1 .sha512 2048)
  else if o = Oid.rsaPss then (pssDigest? signature.parameters).map .rsaPss
  else if o = Oid.ecdsaWithSha256 then ecdsaScheme? .sha256 key
  else if o = Oid.ecdsaWithSha384 then ecdsaScheme? .sha384 key
  else if o = Oid.ed25519 then some .ed25519
  else none

/-- Why a signature does not hold. -/
inductive SignatureError where
  /-- No scheme is known for this pair of algorithms. -/
  | unsupported
  /-- The signature is not one of these octets under this key. -/
  | mismatch
deriving DecidableEq, Repr, Inhabited

/-- The wording of a failed check. -/
def SignatureError.message : SignatureError → String
  | unsupported => "signature unsupported algorithm"
  | mismatch => "signature verification error"

/-- Checks a signature of signed octets under a public key. -/
def PublicKey.verify (k : PublicKey) (algorithm : AlgorithmIdentifier) (signed signature : Bytes) :
    Except SignatureError Unit :=
  match algorithm.scheme? k.algorithm with
  | none => .error .unsupported
  | some scheme => if scheme.verify k.key signed signature then .ok () else .error .mismatch

end PeerTrust.X509
