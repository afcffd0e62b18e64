import PeerTrust.Asn1.Der
import PeerTrust.Curve.Weierstrass
import PeerTrust.Signature.Digest

/-!
# ECDSA signatures

* `Ecdsa.readSignature?` reads the two numbers of a signature;
* `Ecdsa.verify` checks a signature of a message under a key on a curve.
-/

namespace PeerTrust.Ecdsa

open Weierstrass

/-- A positive integer of a signature. -/
def scalar : Der.Reader Nat := do
  let n ← Der.Reader.expect (Der.natural? (← Der.Reader.field Der.tagInteger))
  Der.Reader.check (0 < n)
  return n

/-- The two numbers of a signature. -/
def readSignature? (b : Bytes) : Option (Nat × Nat) := do
  let content ← Der.Reader.complete (Der.Reader.field Der.tagSequence) b
  Der.Reader.complete (do return (← scalar, ← scalar)) content

/-- The number that a digest stands for: its leftmost octets, as many as a coordinate has. -/
def digestScalar (c : Curve) (digest : Bytes) : Nat := Bytes.toNat (digest.take c.size) % c.n

/-- Whether a signature is that of a message under a public point. -/
def verify (c : Curve) (d : Digest) (key message signature : Bytes) : Bool :=
  match c.decodePoint? key, readSignature? signature with
  | some q, some (r, s) =>
    if r < c.n ∧ s < c.n then
      let w := Modular.inverse c.n s
      let u := digestScalar c (d.of message) * w % c.n
      match c.affine? (c.combine u (r * w % c.n) q) with
      | some (x, _) => x % c.n == r
      | none => false
    else false
  | _, _ => false

end PeerTrust.Ecdsa
