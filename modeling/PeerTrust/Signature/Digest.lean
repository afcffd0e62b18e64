import PeerTrust.Hash.Sha1
import PeerTrust.Hash.Sha256
import PeerTrust.Hash.Sha512

/-!
# The digests that signatures are made over

* `Digest.of` hashes a message;
* `Digest.length` is the number of octets it gives (`of_length`);
* `Digest.label` is the DER prefix that names the digest inside an RSA signature.
-/

namespace PeerTrust

/-- A digest that a signature may be made over. -/
inductive Digest where
  | sha1
  | sha256
  | sha384
  | sha512
deriving DecidableEq, Repr, Inhabited

namespace Digest

/-- The digest of a message. -/
def of : Digest → Bytes → Bytes
  | sha1 => Sha1.digest
  | sha256 => Sha256.digest
  | sha384 => Sha384.digest
  | sha512 => Sha512.digest

/-- The number of octets of the digest. -/
def length : Digest → Nat
  | sha1 => 20
  | sha256 => 32
  | sha384 => 48
  | sha512 => 64

theorem of_length (d : Digest) (message : Bytes) : (d.of message).length = d.length := by
  cases d
  · exact Sha1.digest_length message
  · exact Sha256.digest_length message
  · exact Sha384.digest_length message
  · exact Sha512.digest_length message

/-- The last part of the object identifier of a digest of the second generation. -/
def arc : Digest → UInt8
  | sha1 => 0
  | sha256 => 1
  | sha384 => 2
  | sha512 => 3

/-- The DER that stands before the digest in an RSA signature: algorithm and length. -/
def label : Digest → Bytes
  | sha1 => [0x30, 0x21, 0x30, 0x09, 0x06, 0x05, 0x2b, 0x0e, 0x03, 0x02, 0x1a, 0x05, 0x00, 0x04, 0x14]
  | d =>
    let n := UInt8.ofNat d.length
    [0x30, 0x11 + n, 0x30, 0x0d, 0x06, 0x09, 0x60, 0x86, 0x48, 0x01, 0x65, 0x03, 0x04, 0x02, d.arc,
     0x05, 0x00, 0x04, n]

end Digest

end PeerTrust
