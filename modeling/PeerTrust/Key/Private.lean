import PeerTrust.Curve.Weierstrass
import PeerTrust.Key.Algorithm
import PeerTrust.Signature.Ed25519
import PeerTrust.Signature.Rsa

/-!
# Private keys

Private keys are read in the three forms in which they are stored. What is kept of one is what the
peer may learn: of which kind it is, its public half, and with which schemes it signs.

* `SigningKey` is a key, `KeyKind.schemes` the signature schemes of its kind in order of preference;
* `Rsa.PrivateKey` are the numbers of an RSA key, `Rsa.PrivateKey.isSound` relates them;
* `SigningKey.read?` reads a key of any kind, in one of the forms of `KeyForm`.
-/

namespace PeerTrust

open Der (Reader)
open Der.Reader

/-! ## 1. Keys -/

/-- How a private key is written. -/
inductive KeyForm where
  /-- Any kind of key, under the name of its algorithm. -/
  | pkcs8
  /-- The numbers of an RSA key. -/
  | pkcs1
  /-- The number of a key on a curve. -/
  | sec1
deriving DecidableEq, Repr, Inhabited

/-- The kinds of keys. -/
inductive KeyKind where
  | rsa
  | p256
  | p384
  | ed25519
deriving DecidableEq, Repr, Inhabited

/-- The number by which a signature scheme is named in a handshake. -/
abbrev SchemeCode := Nat

/-- The schemes with which a kind of key signs, the preferred one first. -/
def KeyKind.schemes : KeyKind → List SchemeCode
  | rsa => [0x0806, 0x0805, 0x0804, 0x0601, 0x0501, 0x0401]
  | p256 => [0x0403]
  | p384 => [0x0503]
  | ed25519 => [0x0807]

/-- A key that signs. -/
structure SigningKey where
  kind : KeyKind
  /-- The public key with its algorithm, as certificates hold it. -/
  publicKey : Bytes
deriving DecidableEq, Repr, Inhabited

/-- Whether a key signs with one of some schemes. -/
def SigningKey.signsWith (k : SigningKey) (offered : List SchemeCode) : Bool :=
  k.kind.schemes.any offered.contains

/-! ## 2. The common form -/

namespace SigningKey

/-- The content of a string of bits that has no unused ones. -/
def wholeBits? : Bytes → Option Bytes
  | 0 :: octets => some octets
  | _ => none

/-- A number of a version. -/
def version : Reader Nat := do expect (Der.natural? (← field Der.tagInteger))

/-- The public key after a private one: a string of bits under an implicit tag or, as some write
it, inside an explicit one. -/
def attachedKey : Reader Bytes := do
  let bits ← match ← peek with
    | some 0xa1 => within (Der.tagExplicit 1) (field Der.tagBits)
    | _ => field (Der.tagImplicit 1)
  expect (wholeBits? bits)

/-- The private key of an algorithm, and the public one from version one on. Attributes in between
are passed over. -/
def inner (algorithm : Bytes) (lastVersion : Nat) : Reader (Bytes × Option Bytes) :=
  within Der.tagSequence do
    let version ← version
    check ((← field Der.tagSequence) = algorithm && version ≤ lastVersion)
    let key ← field Der.tagOctets
    let _ ← optional (Der.tagExplicit 0)
    if version = 0 then return (key, none) else return (key, some (← attachedKey))

end SigningKey

/-! ## 3. RSA -/

namespace Rsa

/-- The numbers of a private key. -/
structure PrivateKey where
  n : Nat
  e : Nat
  d : Nat
  p : Nat
  q : Nat
  dp : Nat
  dq : Nat
  qInv : Nat
deriving DecidableEq, Repr, Inhabited

namespace PrivateKey

/-- An unsigned number. -/
def number : Reader Nat := do expect (Der.natural? (← field Der.tagInteger))

/-- The numbers of a private key, after the version zero. -/
def reader : Reader PrivateKey :=
  within Der.tagSequence do
    check ((← number) = 0)
    return ⟨← number, ← number, ← number, ← number, ← number, ← number, ← number, ← number⟩

/-- Whether the numbers belong together: a modulus of 2048 to 4096 bits that is the product of two
odd numbers of half its bits, an odd public exponent of 17 to 33 bits, and private exponents that
are odd and in range. The inverse matters where the first factor is the larger one. -/
def isSound (k : PrivateKey) : Bool :=
  let bits := bitLength k.n
  let half := (bits + 1) / 2
  k.n % 2 = 1 && 2048 ≤ (bits + 7) / 8 * 8 && bits ≤ 4096 &&
  65537 ≤ k.e && k.e < 2 ^ 33 && k.e % 2 = 1 &&
  half % 512 = 0 &&
  bitLength k.p = half && k.p % 2 = 1 && bitLength k.q = half && k.q % 2 = 1 &&
  k.p * k.q = k.n &&
  k.d % 2 = 1 && half < bitLength k.d && k.d < k.n &&
  k.dp % 2 = 1 && k.dp < k.p && k.dq % 2 = 1 && k.dq < k.q &&
  (k.p ≤ k.q || (k.qInv < k.p && k.qInv * k.q % k.p = 1))

/-- The public half, as it is written. -/
def publicKey (k : PrivateKey) : Bytes :=
  Der.encode Der.tagSequence (Der.encodeNatural k.n ++ Der.encodeNatural k.e)

/-- The key that octets are. -/
def read? (b : Bytes) : Option SigningKey := do
  let k ← complete reader b
  if k.isSound then
    return ⟨.rsa, KeyAlgorithm.publicKey KeyAlgorithm.rsa k.publicKey⟩
  else none

end PrivateKey

end Rsa

/-! ## 4. Curves -/

namespace SigningKey

/-- The number of a key on a curve, and the public key that has to stand beside it. A curve may be
named once more. -/
def scalarAndPoint (curve : Oid) : Reader (Bytes × Bytes) :=
  within Der.tagSequence do
    check ((← version) = 1)
    let scalar ← field Der.tagOctets
    match ← optional (Der.tagExplicit 0) with
    | some name => check (name = KeyAlgorithm.written curve)
    | none => pure ()
    let bits ← within (Der.tagExplicit 1) (field Der.tagBits)
    return (scalar, ← expect (wholeBits? bits))

/-- The key on a curve that octets are. -/
def readScalar? (kind : KeyKind) (name : Oid) (c : Weierstrass.Curve) (b : Bytes) :
    Option SigningKey := do
  let (scalar, point) ← complete (scalarAndPoint name) b
  let n := Bytes.toNat scalar
  if scalar.length = c.size ∧ 0 < n ∧ n < c.n ∧ c.encodePoint? (c.scale n) = some point then
    return ⟨kind, KeyAlgorithm.publicKey (KeyAlgorithm.onCurve name) point⟩
  else none

/-- A key on a curve in one of its forms. -/
def readCurve? (kind : KeyKind) (name : Oid) (c : Weierstrass.Curve) (form : KeyForm) (b : Bytes) :
    Option SigningKey := do
  match form with
  | .pkcs8 => readScalar? kind name c (← complete (inner (KeyAlgorithm.onCurve name) 0) b).1
  | .sec1 => readScalar? kind name c b
  | .pkcs1 => none

/-- An Ed25519 key. -/
def readEd25519? (b : Bytes) : Option SigningKey := do
  let (octets, attached) ← complete (inner KeyAlgorithm.ed25519 1) b
  let seed ← complete (field Der.tagOctets) octets
  if seed.length ≠ 32 then none
  else
    let key := Ed25519.publicKey seed
    if attached.all (· = key) then
      return ⟨.ed25519, KeyAlgorithm.publicKey KeyAlgorithm.ed25519 key⟩
    else none

/-- An RSA key in one of its forms. -/
def readRsa? (form : KeyForm) (b : Bytes) : Option SigningKey := do
  match form with
  | .pkcs8 => Rsa.PrivateKey.read? (← complete (inner KeyAlgorithm.rsa 0) b).1
  | .pkcs1 => Rsa.PrivateKey.read? b
  | .sec1 => none

/-- A key of any kind. -/
def read? (form : KeyForm) (b : Bytes) : Option SigningKey :=
  ((readRsa? form b).or (readCurve? .p256 Oid.curveP256 Weierstrass.p256 form b)).or
    ((readCurve? .p384 Oid.curveP384 Weierstrass.p384 form b).or
      (if form = .pkcs8 then readEd25519? b else none))

end SigningKey

end PeerTrust
