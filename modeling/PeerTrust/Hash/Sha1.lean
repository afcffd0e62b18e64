import PeerTrust.Bytes

/-!
# SHA-1

The digest of FIPS 180-4 that names issuers in OCSP requests and signs old certificates.

* `Chain.compress` folds one block of sixteen words into the chaining value of five words;
* `Sha1.digest` is the digest of a whole message, always 20 octets.
-/

namespace PeerTrust.Sha1

/-- The chaining value: five words. -/
structure Chain where
  (a b c d e : UInt32)
deriving DecidableEq, Inhabited

/-- The chaining value of the empty message. -/
def Chain.start : Chain := ⟨0x67452301, 0xefcdab89, 0x98badcfe, 0x10325476, 0xc3d2e1f0⟩

/-- Rotation to the left. -/
@[inline] def rotl (x : UInt32) (n : UInt32) : UInt32 := (x <<< n) ||| (x >>> (32 - n))

/-- Appends `n` words to a message schedule of at least sixteen. -/
def extend : (n : Nat) → Array UInt32 → Array UInt32
  | 0, w => w
  | n + 1, w =>
    extend n (w.push
      (rotl (w[w.size - 3]! ^^^ w[w.size - 8]! ^^^ w[w.size - 14]! ^^^ w[w.size - 16]!) 1))

/-- The function and the constant of round `i`. -/
def mix (i : Nat) (b c d : UInt32) : UInt32 :=
  if i < 20 then ((b &&& c) ||| (~~~b &&& d)) + 0x5a827999
  else if i < 40 then (b ^^^ c ^^^ d) + 0x6ed9eba1
  else if i < 60 then ((b &&& c) ||| (b &&& d) ||| (c &&& d)) + 0x8f1bbcdc
  else (b ^^^ c ^^^ d) + 0xca62c1d6

/-- The rounds from number `i` on, `n` of them, on the five working words. -/
def rounds (w : Array UInt32) : (n i : Nat) → (a b c d e : UInt32) → Chain
  | 0, _, a, b, c, d, e => ⟨a, b, c, d, e⟩
  | n + 1, i, a, b, c, d, e =>
    rounds w n (i + 1) (rotl a 5 + mix i b c d + e + w[i]!) a (rotl b 30) c d

/-- Folds one block of sixteen words into the chaining value. -/
def Chain.compress (s : Chain) (block : Array UInt32) : Chain :=
  let t := rounds (extend 64 block) 80 0 s.a s.b s.c s.d s.e
  ⟨s.a + t.a, s.b + t.b, s.c + t.c, s.d + t.d, s.e + t.e⟩

/-- The words of a string of octets, four octets each; up to three at the end are dropped. -/
def words : Bytes → Array UInt32 → Array UInt32
  | p :: q :: r :: s :: rest, acc =>
    words rest (acc.push
      ((p.toUInt32 <<< 24) ||| (q.toUInt32 <<< 16) ||| (r.toUInt32 <<< 8) ||| s.toUInt32))
  | _, acc => acc

/-- The four octets of a word. -/
def octets (w : UInt32) : Bytes :=
  [(w >>> 24).toUInt8, (w >>> 16).toUInt8, (w >>> 8).toUInt8, w.toUInt8]

/-- The five words as 20 octets. -/
def Chain.toBytes (s : Chain) : Bytes :=
  octets s.a ++ octets s.b ++ octets s.c ++ octets s.d ++ octets s.e

/-- What follows a message of `length` octets: a one bit, zeros, and the length in bits. -/
def padding (length : Nat) : Bytes :=
  0x80 :: List.replicate ((119 - length % 64) % 64) 0 ++ Bytes.ofNat 8 (8 * length)

/-- The SHA-1 digest of a message. -/
def digest (message : Bytes) : Bytes :=
  (((message ++ padding message.length).chunks 64).foldl
    (fun s block => s.compress (words block #[])) Chain.start).toBytes

theorem octets_length (w : UInt32) : (octets w).length = 4 := rfl

theorem digest_length (message : Bytes) : (digest message).length = 20 := by
  simp [digest, Chain.toBytes, octets_length]

end PeerTrust.Sha1
