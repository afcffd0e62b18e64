import PeerTrust.Bytes

/-!
# SHA-256

The digest of FIPS 180-4 on 32-bit words.

* `Chain` is the chaining value of eight words, `Chain.start` the one a digest begins with;
* `Chain.compress` folds one block of sixteen words into it;
* `Chain.finish` pads what is left of a message, of which `before` octets are already folded in,
  and gives the digest: keyed hashing starts in the middle of a message this way;
* `Sha256.digest` is the digest of a whole message, always 32 octets.
-/

namespace PeerTrust.Sha256

/-- The chaining value: eight words. -/
structure Chain where
  (a b c d e f g h : UInt32)
deriving DecidableEq, Inhabited

/-- The chaining value of the empty message. -/
def Chain.start : Chain :=
  ⟨0x6a09e667, 0xbb67ae85, 0x3c6ef372, 0xa54ff53a, 0x510e527f, 0x9b05688c, 0x1f83d9ab, 0x5be0cd19⟩

/-- The sixty-four round constants. -/
def roundConstants : Array UInt32 := #[
  0x428a2f98, 0x71374491, 0xb5c0fbcf, 0xe9b5dba5, 0x3956c25b, 0x59f111f1, 0x923f82a4, 0xab1c5ed5,
  0xd807aa98, 0x12835b01, 0x243185be, 0x550c7dc3, 0x72be5d74, 0x80deb1fe, 0x9bdc06a7, 0xc19bf174,
  0xe49b69c1, 0xefbe4786, 0x0fc19dc6, 0x240ca1cc, 0x2de92c6f, 0x4a7484aa, 0x5cb0a9dc, 0x76f988da,
  0x983e5152, 0xa831c66d, 0xb00327c8, 0xbf597fc7, 0xc6e00bf3, 0xd5a79147, 0x06ca6351, 0x14292967,
  0x27b70a85, 0x2e1b2138, 0x4d2c6dfc, 0x53380d13, 0x650a7354, 0x766a0abb, 0x81c2c92e, 0x92722c85,
  0xa2bfe8a1, 0xa81a664b, 0xc24b8b70, 0xc76c51a3, 0xd192e819, 0xd6990624, 0xf40e3585, 0x106aa070,
  0x19a4c116, 0x1e376c08, 0x2748774c, 0x34b0bcb5, 0x391c0cb3, 0x4ed8aa4a, 0x5b9cca4f, 0x682e6ff3,
  0x748f82ee, 0x78a5636f, 0x84c87814, 0x8cc70208, 0x90befffa, 0xa4506ceb, 0xbef9a3f7, 0xc67178f2]

/-- Rotation to the right. -/
@[inline] def rotr (x : UInt32) (n : UInt32) : UInt32 := (x >>> n) ||| (x <<< (32 - n))

/-- Appends `n` words to a message schedule of at least sixteen. -/
def extend : (n : Nat) → Array UInt32 → Array UInt32
  | 0, w => w
  | n + 1, w =>
    let x := w[w.size - 15]!
    let y := w[w.size - 2]!
    let s0 := rotr x 7 ^^^ rotr x 18 ^^^ (x >>> 3)
    let s1 := rotr y 17 ^^^ rotr y 19 ^^^ (y >>> 10)
    extend n (w.push (s1 + w[w.size - 7]! + s0 + w[w.size - 16]!))

/-- The rounds from number `i` on, `n` of them, on the eight working words. -/
def rounds (w : Array UInt32) : (n i : Nat) → (a b c d e f g h : UInt32) → Chain
  | 0, _, a, b, c, d, e, f, g, h => ⟨a, b, c, d, e, f, g, h⟩
  | n + 1, i, a, b, c, d, e, f, g, h =>
    let s1 := rotr e 6 ^^^ rotr e 11 ^^^ rotr e 25
    let t1 := h + s1 + ((e &&& f) ^^^ (~~~e &&& g)) + roundConstants[i]! + w[i]!
    let s0 := rotr a 2 ^^^ rotr a 13 ^^^ rotr a 22
    let t2 := s0 + ((a &&& b) ^^^ (a &&& c) ^^^ (b &&& c))
    rounds w n (i + 1) (t1 + t2) a b c (d + t1) e f g

/-- Folds one block of sixteen words into the chaining value. -/
def Chain.compress (s : Chain) (block : Array UInt32) : Chain :=
  let t := rounds (extend 48 block) 64 0 s.a s.b s.c s.d s.e s.f s.g s.h
  ⟨s.a + t.a, s.b + t.b, s.c + t.c, s.d + t.d, s.e + t.e, s.f + t.f, s.g + t.g, s.h + t.h⟩

/-- The words of a string of octets, four octets each; up to three at the end are dropped. -/
def words : Bytes → Array UInt32 → Array UInt32
  | p :: q :: r :: s :: rest, acc =>
    words rest (acc.push
      ((p.toUInt32 <<< 24) ||| (q.toUInt32 <<< 16) ||| (r.toUInt32 <<< 8) ||| s.toUInt32))
  | _, acc => acc

/-- The four octets of a word. -/
def octets (w : UInt32) : Bytes :=
  [(w >>> 24).toUInt8, (w >>> 16).toUInt8, (w >>> 8).toUInt8, w.toUInt8]

/-- The eight words as 32 octets. -/
def Chain.toBytes (s : Chain) : Bytes :=
  octets s.a ++ octets s.b ++ octets s.c ++ octets s.d ++
  octets s.e ++ octets s.f ++ octets s.g ++ octets s.h

/-- Folds whole blocks of 64 octets into the chaining value. -/
def Chain.absorb (s : Chain) (b : Bytes) : Chain :=
  (b.chunks 64).foldl (fun s block => s.compress (words block #[])) s

/-- What follows a message of `length` octets: a one bit, zeros, and the length in bits. -/
def padding (length : Nat) : Bytes :=
  0x80 :: List.replicate ((119 - length % 64) % 64) 0 ++ Bytes.ofNat 8 (8 * length)

/-- The digest of a message whose first `before` octets, whole blocks, led to this value. -/
def Chain.finish (s : Chain) (before : Nat) (rest : Bytes) : Bytes :=
  (s.absorb (rest ++ padding (before + rest.length))).toBytes

/-- The SHA-256 digest of a message. -/
def digest (message : Bytes) : Bytes := Chain.start.finish 0 message

theorem octets_length (w : UInt32) : (octets w).length = 4 := rfl

theorem digest_length (message : Bytes) : (digest message).length = 32 := by
  simp [digest, Chain.finish, Chain.toBytes, octets_length]

end PeerTrust.Sha256
