import PeerTrust.Asn1.Der
import PeerTrust.Asn1.Oid

/-!
# Algorithms of keys, as they are written

Keys and signatures are told apart by the octets of their algorithm identifiers, which have one
written form each.

* `KeyAlgorithm.rsa`, `KeyAlgorithm.onCurve` and `KeyAlgorithm.ed25519` are the contents of the
  identifiers of keys;
* `KeyAlgorithm.publicKey` is a public key under such an identifier.
-/

namespace PeerTrust.KeyAlgorithm

/-- An object identifier as it is written. -/
def written (o : Oid) : Bytes := Der.encode Der.tagOid o.octets

/-- Parameters that are null. -/
def nullParameters : Bytes := Der.encode Der.tagNull []

/-- RSA keys. -/
def rsa : Bytes := written Oid.rsaEncryption ++ nullParameters

/-- Keys on a curve. -/
def onCurve (curve : Oid) : Bytes := written Oid.ecPublicKey ++ written curve

/-- Ed25519 keys. -/
def ed25519 : Bytes := written Oid.ed25519

/-- A public key under the identifier of its algorithm. -/
def publicKey (algorithm key : Bytes) : Bytes :=
  Der.encode Der.tagSequence (Der.encode Der.tagSequence algorithm ++
    Der.encode Der.tagBits (0 :: key))

end PeerTrust.KeyAlgorithm
