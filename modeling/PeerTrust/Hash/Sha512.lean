import PeerTrust.Bytes

/-!
# SHA-384 and SHA-512

The two digests of FIPS 180-4 on 64-bit words. They differ in the value they start from and in
how much of the last chaining value they give out.

* `Chain.compress` folds one block of sixteen words into the chaining value of eight words;
* `Sha384.digest` is always 48 octets, `Sha512.digest` 64.
-/

namespace PeerTrust.Sha512

/-- The chaining value: eight words. -/
structure Chain where
  (a b c d e f g h : UInt64)
deriving DecidableEq, Inhabited

/-- The chaining value with which SHA-512 begins. -/
def Chain.start : Chain :=
  ⟨0x6a09e667f3bcc908, 0xbb67ae8584caa73b, 0x3c6ef372fe94f82b, 0xa54ff53a5f1d36f1,
   0x510e527fade682d1, 0x9b05688c2b3e6c1f, 0x1f83d9abfb41bd6b, 0x5be0cd19137e2179⟩

/-- The chaining value with which SHA-384 begins. -/
def Chain.start384 : Chain :=
  ⟨0xcbbb9d5dc1059ed8, 0x629a292a367cd507, 0x9159015a3070dd17, 0x152fecd8f70e5939,
   0x67332667ffc00b31, 0x8eb44a8768581511, 0xdb0c2e0d64f98fa7, 0x47b5481dbefa4fa4⟩

/-- The eighty round constants. -/
def roundConstants : Array UInt64 := #[
  0x428a2f98d728ae22, 0x7137449123ef65cd, 0xb5c0fbcfec4d3b2f, 0xe9b5dba58189dbbc,
  0x3956c25bf348b538, 0x59f111f1b605d019, 0x923f82a4af194f9b, 0xab1c5ed5da6d8118,
  0xd807aa98a3030242, 0x12835b0145706fbe, 0x243185be4ee4b28c, 0x550c7dc3d5ffb4e2,
  0x72be5d74f27b896f, 0x80deb1fe3b1696b1, 0x9bdc06a725c71235, 0xc19bf174cf692694,
  0xe49b69c19ef14ad2, 0xefbe4786384f25e3, 0x0fc19dc68b8cd5b5, 0x240ca1cc77ac9c65,
  0x2de92c6f592b0275, 0x4a7484aa6ea6e483, 0x5cb0a9dcbd41fbd4, 0x76f988da831153b5,
  0x983e5152ee66dfab, 0xa831c66d2db43210, 0xb00327c898fb213f, 0xbf597fc7beef0ee4,
  0xc6e00bf33da88fc2, 0xd5a79147930aa725, 0x06ca6351e003826f, 0x142929670a0e6e70,
  0x27b70a8546d22ffc, 0x2e1b21385c26c926, 0x4d2c6dfc5ac42aed, 0x53380d139d95b3df,
  0x650a73548baf63de, 0x766a0abb3c77b2a8, 0x81c2c92e47edaee6, 0x92722c851482353b,
  0xa2bfe8a14cf10364, 0xa81a664bbc423001, 0xc24b8b70d0f89791, 0xc76c51a30654be30,
  0xd192e819d6ef5218, 0xd69906245565a910, 0xf40e35855771202a, 0x106aa07032bbd1b8,
  0x19a4c116b8d2d0c8, 0x1e376c085141ab53, 0x2748774cdf8eeb99, 0x34b0bcb5e19b48a8,
  0x391c0cb3c5c95a63, 0x4ed8aa4ae3418acb, 0x5b9cca4f7763e373, 0x682e6ff3d6b2b8a3,
  0x748f82ee5defb2fc, 0x78a5636f43172f60, 0x84c87814a1f0ab72, 0x8cc702081a6439ec,
  0x90befffa23631e28, 0xa4506cebde82bde9, 0xbef9a3f7b2c67915, 0xc67178f2e372532b,
  0xca273eceea26619c, 0xd186b8c721c0c207, 0xeada7dd6cde0eb1e, 0xf57d4f7fee6ed178,
  0x06f067aa72176fba, 0x0a637dc5a2c898a6, 0x113f9804bef90dae, 0x1b710b35131c471b,
  0x28db77f523047d84, 0x32caab7b40c72493, 0x3c9ebe0a15c9bebc, 0x431d67c49c100d4c,
  0x4cc5d4becb3e42b6, 0x597f299cfc657e2a, 0x5fcb6fab3ad6faec, 0x6c44198c4a475817]

/-- Rotation to the right. -/
@[inline] def rotr (x : UInt64) (n : UInt64) : UInt64 := (x >>> n) ||| (x <<< (64 - n))

/-- Appends `n` words to a message schedule of at least sixteen. -/
def extend : (n : Nat) → Array UInt64 → Array UInt64
  | 0, w => w
  | n + 1, w =>
    let x := w[w.size - 15]!
    let y := w[w.size - 2]!
    let s0 := rotr x 1 ^^^ rotr x 8 ^^^ (x >>> 7)
    let s1 := rotr y 19 ^^^ rotr y 61 ^^^ (y >>> 6)
    extend n (w.push (s1 + w[w.size - 7]! + s0 + w[w.size - 16]!))

/-- The rounds from number `i` on, `n` of them, on the eight working words. -/
def rounds (w : Array UInt64) : (n i : Nat) → (a b c d e f g h : UInt64) → Chain
  | 0, _, a, b, c, d, e, f, g, h => ⟨a, b, c, d, e, f, g, h⟩
  | n + 1, i, a, b, c, d, e, f, g, h =>
    let s1 := rotr e 14 ^^^ rotr e 18 ^^^ rotr e 41
    let t1 := h + s1 + ((e &&& f) ^^^ (~~~e &&& g)) + roundConstants[i]! + w[i]!
    let s0 := rotr a 28 ^^^ rotr a 34 ^^^ rotr a 39
    let t2 := s0 + ((a &&& b) ^^^ (a &&& c) ^^^ (b &&& c))
    rounds w n (i + 1) (t1 + t2) a b c (d + t1) e f g

/-- Folds one block of sixteen words into the chaining value. -/
def Chain.compress (s : Chain) (block : Array UInt64) : Chain :=
  let t := rounds (extend 64 block) 80 0 s.a s.b s.c s.d s.e s.f s.g s.h
  ⟨s.a + t.a, s.b + t.b, s.c + t.c, s.d + t.d, s.e + t.e, s.f + t.f, s.g + t.g, s.h + t.h⟩

/-- The eight octets of a word. -/
def octets (w : UInt64) : Bytes :=
  [(w >>> 56).toUInt8, (w >>> 48).toUInt8, (w >>> 40).toUInt8, (w >>> 32).toUInt8,
   (w >>> 24).toUInt8, (w >>> 16).toUInt8, (w >>> 8).toUInt8, w.toUInt8]

/-- The words of a block, eight octets each. -/
def words (block : Bytes) : Array UInt64 :=
  ((block.chunks 8).map fun o => o.foldl (fun w x => (w <<< 8) ||| x.toUInt64) 0).toArray

/-- The eight words as 64 octets. -/
def Chain.toBytes (s : Chain) : Bytes :=
  octets s.a ++ octets s.b ++ octets s.c ++ octets s.d ++
  octets s.e ++ octets s.f ++ octets s.g ++ octets s.h

/-- What follows a message of `length` octets: a one bit, zeros, and the length in bits. -/
def padding (length : Nat) : Bytes :=
  0x80 :: List.replicate ((239 - length % 128) % 128) 0 ++ Bytes.ofNat 16 (8 * length)

/-- The chaining value at the end of a padded message. -/
def Chain.absorb (s : Chain) (message : Bytes) : Chain :=
  ((message ++ padding message.length).chunks 128).foldl (fun s block => s.compress (words block)) s

/-- The SHA-512 digest of a message. -/
def digest (message : Bytes) : Bytes := (Chain.start.absorb message).toBytes

theorem octets_length (w : UInt64) : (octets w).length = 8 := rfl

theorem digest_length (message : Bytes) : (digest message).length = 64 := by
  simp [digest, Chain.toBytes, octets_length]

end PeerTrust.Sha512

namespace PeerTrust.Sha384

/-- The SHA-384 digest of a message. -/
def digest (message : Bytes) : Bytes := ((Sha512.Chain.start384.absorb message).toBytes).take 48

theorem digest_length (message : Bytes) : (digest message).length = 48 := by
  simp [digest, Sha512.Chain.toBytes, Sha512.octets_length]

end PeerTrust.Sha384
