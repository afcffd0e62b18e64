import PeerTrust.Cipher.Gcm
import PeerTrust.Hash.Hmac
import PeerTrust.Secret
import PeerTrust.Text.Pem

/-!
# Sealed containers

A container holds octets under a password: eight octets that mark it, its version, the number of
rounds by which the key is derived, a salt, a nonce, and the ciphertext with its tag. The tag is
also over all that comes before the salt, so that the number of rounds cannot be lowered.

* `Sealed.wrap` makes a container, `Sealed.unwrap` opens one;
* `Sealed.wrapKey` makes one for a private key, as PEM.
-/

namespace PeerTrust.Sealed

/-! ## 1. Layout -/

/-- The octets that mark a container. -/
def magic : Bytes := [77, 84, 76, 83, 83, 69, 65, 76]

/-- The version that is written, and the only one that is read. -/
def version : UInt8 := 1

/-- The fewest rounds by which a key may be derived. -/
def minRounds : Nat := 10000

/-- The length of a salt. -/
def saltLength : Nat := 32

/-- The length of a nonce. -/
def nonceLength : Nat := 12

/-- The length of a tag. -/
def tagLength : Nat := 16

/-- What comes before the salt. -/
def header (rounds : Nat) : Bytes := magic ++ version :: Bytes.ofNat 4 rounds

/-- The length of what comes before the salt. -/
def headerLength : Nat := 13

/-- Whether octets are marked as a container. -/
def isSealed (b : Bytes) : Bool := magic.isPrefixOf b

/-- Why there is no container, or it does not open. -/
inductive Error where
  | notSealed
  | unsupportedVersion (version : UInt8)
  | weakRounds (rounds : Nat)
  | passwordRequired
  | authentication
deriving DecidableEq, Repr, Inhabited

/-- The wording of an error. -/
def Error.message : Error → String
  | notSealed => "content is not a sealed container"
  | unsupportedVersion version => s!"unsupported sealed container version {version.toNat}"
  | weakRounds rounds => s!"iteration count {rounds} is below the minimum of 10000"
  | passwordRequired => "a password is required to open a sealed container"
  | authentication => "authentication failed: wrong password or corrupted data"

/-! ## 2. Making and opening -/

/-- The key that a password and a salt give. -/
def deriveKey (password : Secret) (salt : Bytes) (rounds : Nat) : Bytes :=
  Pbkdf2.derive password.octets salt rounds

/-- Makes a container. -/
def wrap (content : Bytes) (password : Secret) (rounds : Nat) (salt nonce : Bytes) :
    Except Error Bytes :=
  if rounds < minRounds then .error (.weakRounds rounds)
  else
    .ok (header rounds ++ salt ++ nonce ++
      Gcm.encrypt (deriveKey password salt rounds) nonce (header rounds) content)

/-- The parts of a container after its mark and version. -/
structure Parts where
  rounds : Nat
  salt : Bytes
  nonce : Bytes
  ciphertext : Bytes
deriving DecidableEq, Repr, Inhabited

/-- Takes a container apart. -/
def parts (b : Bytes) : Except Error Parts :=
  if !isSealed b then .error .notSealed
  else if b.length < headerLength + saltLength + nonceLength + tagLength then .error .authentication
  else
    let found := (b.drop 8).headD 0
    let rounds := Bytes.toNat ((b.drop 9).take 4)
    if found ≠ version then .error (.unsupportedVersion found)
    else if rounds < minRounds then .error (.weakRounds rounds)
    else
      let rest := b.drop headerLength
      .ok { rounds, salt := rest.take saltLength
            nonce := (rest.drop saltLength).take nonceLength
            ciphertext := rest.drop (saltLength + nonceLength) }

/-- Opens a container. -/
def unwrap (b : Bytes) (password : Option Secret) : Except Error Secret := do
  let p ← parts b
  match password with
  | none => throw .passwordRequired
  | some password =>
    match Gcm.decrypt? (deriveKey password p.salt p.rounds) p.nonce (header p.rounds)
        p.ciphertext with
    | some content => return ⟨content⟩
    | none => throw .authentication

/-- The tag of a private key in a container. -/
def keyTag : String := "SEALED PRIVATE KEY"

/-- Makes a container for a private key, as PEM. -/
def wrapKey (key : Bytes) (password : Secret) (rounds : Nat) (salt nonce : Bytes) :
    Except Error String := do
  return (⟨keyTag, ← wrap key password rounds salt nonce⟩ : Pem.Block).encode

end PeerTrust.Sealed
