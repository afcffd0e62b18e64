import PeerTrust.Hash.Sha256

/-!
# Keyed hashing and password stretching

HMAC-SHA-256 (RFC 2104) and the key derivation PBKDF2 (RFC 8018) over it.

* A `Hmac.Key` holds the two chaining values at which the inner and the outer hash start, so that
  a key is folded in once and not at every use;
* `Pbkdf2.derive` gives the first 32 octets, which is one block of the derivation.
-/

namespace PeerTrust.Hmac

/-- A key as the chaining values behind its inner and its outer block. -/
structure Key where
  inner : Sha256.Chain
  outer : Sha256.Chain
deriving Inhabited

/-- The block of 64 octets that stands for a key: a longer key is hashed first. -/
def keyBlock (key : Bytes) : Bytes :=
  let k := if key.length ≤ 64 then key else Sha256.digest key
  k ++ List.replicate (64 - k.length) 0

/-- The key behind a string of octets. -/
def Key.ofBytes (key : Bytes) : Key :=
  ⟨Sha256.Chain.start.absorb ((keyBlock key).map (· ^^^ 0x36)),
   Sha256.Chain.start.absorb ((keyBlock key).map (· ^^^ 0x5c))⟩

/-- The HMAC-SHA-256 of a message. -/
def Key.digest (k : Key) (message : Bytes) : Bytes :=
  k.outer.finish 64 (k.inner.finish 64 message)

end PeerTrust.Hmac

namespace PeerTrust.Pbkdf2

/-- Continues the chain of `n` further keyed hashes and adds each to `sum`. -/
def stretch (key : Hmac.Key) : (n : Nat) → (link sum : Bytes) → Bytes
  | 0, _, sum => sum
  | n + 1, link, sum =>
    let next := key.digest link
    stretch key n next (sum.xor next)

/-- The 32 octets that `iterations` rounds derive from a password and a salt. -/
def derive (password salt : Bytes) (iterations : Nat) : Bytes :=
  let key := Hmac.Key.ofBytes password
  let first := key.digest (salt ++ Bytes.ofNat 4 1)
  stretch key (iterations - 1) first first

end PeerTrust.Pbkdf2
