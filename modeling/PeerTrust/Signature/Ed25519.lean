import PeerTrust.Curve.Edwards
import PeerTrust.Hash.Sha512

/-!
# Ed25519 signatures

* `Ed25519.verify` checks a signature of 64 octets under a key of 32;
* `Ed25519.publicKey` is the key that belongs to a secret seed.
-/

namespace PeerTrust.Ed25519

/-- Whether a signature is that of a message under a public key. -/
def verify (key message signature : Bytes) : Bool :=
  let r := signature.take 32
  let s := Bytes.toNatLow (signature.drop 32)
  if signature.length ≠ 64 ∨ Edwards.order ≤ s then false
  else
    match Edwards.decodePoint? key with
    | none => false
    | some a =>
      let h := Bytes.toNatLow (Sha512.digest (r ++ key ++ message)) % Edwards.order
      Edwards.encodePoint
        (Edwards.add (Edwards.scale s Edwards.base) (Edwards.scale h (Edwards.negate a))) == r

/-- The scalar behind a secret seed. -/
def secretScalar (seed : Bytes) : Nat :=
  let n := Bytes.toNatLow ((Sha512.digest seed).take 32)
  n % 2 ^ 254 / 8 * 8 + 2 ^ 254

/-- The public key of a secret seed. -/
def publicKey (seed : Bytes) : Bytes :=
  Edwards.encodePoint (Edwards.scale (secretScalar seed) Edwards.base)

end PeerTrust.Ed25519
