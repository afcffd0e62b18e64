import PeerTrust.Arith.Modular
import PeerTrust.Asn1.Der
import PeerTrust.Signature.Digest

/-!
# RSA signatures

Verification of the two paddings of RFC 8017 over a digest.

* `Rsa.PublicKey.read?` reads a key, `Rsa.PublicKey.isUsable` bounds its size;
* `Rsa.verifyPkcs1` compares with the one padded digest there is;
* `Rsa.verifyPss` takes the salt to be as long as the digest.
-/

namespace PeerTrust.Rsa

/-! ## 1. Keys -/

/-- A modulus and a public exponent. -/
structure PublicKey where
  n : Nat
  e : Nat
deriving DecidableEq, Repr, Inhabited

/-- A positive integer of a key. -/
def positive : Der.Reader Nat := do
  let n ← Der.Reader.expect (Der.natural? (← Der.Reader.field Der.tagInteger))
  Der.Reader.check (0 < n)
  return n

/-- Reads a key: the sequence of its two numbers. -/
def PublicKey.read? (b : Bytes) : Option PublicKey := do
  let content ← Der.Reader.complete (Der.Reader.field Der.tagSequence) b
  Der.Reader.complete (do return ⟨← positive, ← positive⟩) content

/-- The number of bits of a number. -/
def bitLength (n : Nat) : Nat := if n = 0 then 0 else n.log2 + 1

/-- The octets of the modulus, and of every signature. -/
def PublicKey.size (k : PublicKey) : Nat := (bitLength k.n + 7) / 8

/-- Whether a key may verify: odd numbers, at least `minBits` bits counted in whole octets and at
most 8192, and an exponent of at most 33 bits other than one. -/
def PublicKey.isUsable (k : PublicKey) (minBits : Nat) : Bool :=
  k.n % 2 = 1 && minBits ≤ 8 * k.size && bitLength k.n ≤ 8192 &&
  k.e % 2 = 1 && 3 ≤ k.e && k.e < 2 ^ 33

/-- What a signature opens to under a usable key, if it is of the right size. -/
def PublicKey.open? (k : PublicKey) (minBits : Nat) (signature : Bytes) : Option Nat :=
  let s := Bytes.toNat signature
  if k.isUsable minBits ∧ signature.length = k.size ∧ 0 < s ∧ s < k.n then
    some (Modular.pow k.n s k.e)
  else none

/-! ## 2. The padding with a constant -/

/-- The padded digest that fills `size` octets. -/
def padded (d : Digest) (size : Nat) (message : Bytes) : Bytes :=
  let tail := d.label ++ d.of message
  0 :: 1 :: (List.replicate (size - tail.length - 3) 0xff ++ 0 :: tail)

/-- Whether a signature with the constant padding is that of a message. -/
def verifyPkcs1 (d : Digest) (minBits : Nat) (key message signature : Bytes) : Bool :=
  match PublicKey.read? key with
  | none => false
  | some k =>
    match k.open? minBits signature with
    | none => false
    | some m => Bytes.ofNat k.size m == padded d k.size message

/-! ## 3. The padding with a salt -/

/-- Blocks of the mask from number `i` on. -/
def maskBlocks (d : Digest) (seed : Bytes) : (blocks i : Nat) → Bytes
  | 0, _ => []
  | blocks + 1, i => d.of (seed ++ Bytes.ofNat 4 i) ++ maskBlocks d seed blocks (i + 1)

/-- The mask of `size` octets that a seed generates. -/
def mask (d : Digest) (seed : Bytes) (size : Nat) : Bytes :=
  (maskBlocks d seed (size / d.length + 1) 0).take size

/-- Whether an opened signature of `bits` bits is a salted padding of a message. -/
def isSalted (d : Digest) (bits : Nat) (message em : Bytes) : Bool :=
  let spare := 8 * em.length - bits
  let h := d.length
  if em.length < 2 * h + 2 ∨ em.getLast? ≠ some 0xbc then false
  else
    let maskedSize := em.length - h - 1
    let masked := em.take maskedSize
    let seed := (em.drop maskedSize).take h
    let first := UInt8.ofNat (2 ^ (8 - spare))
    match masked, Bytes.xor masked (mask d seed maskedSize) with
    | m :: _, x :: rest =>
      let db := (if spare = 0 then x else x % first) :: rest
      let zeros := maskedSize - h - 1
      (spare = 0 || m < first) &&
      db.take (zeros + 1) == List.replicate zeros 0 ++ [1] &&
      d.of (List.replicate 8 0 ++ d.of message ++ db.drop (zeros + 1)) == seed
    | _, _ => false

/-- Whether a signature with the salted padding is that of a message. -/
def verifyPss (d : Digest) (key message signature : Bytes) : Bool :=
  match PublicKey.read? key with
  | none => false
  | some k =>
    match k.open? 2048 signature with
    | none => false
    | some m =>
      let bits := bitLength k.n - 1
      let size := (bits + 7) / 8
      m < 2 ^ (8 * size) && isSalted d bits message (Bytes.ofNat size m)

end PeerTrust.Rsa
