import PeerTrust.Cipher.Aes

/-!
# AES-256-GCM

Authenticated encryption with a nonce of twelve octets and a tag of sixteen (NIST SP 800-38D).

* `Gcm.encrypt` gives the ciphertext followed by its tag;
* `Gcm.decrypt?` gives the plaintext back, or nothing when the tag is not the one expected;
* `decrypt?_encrypt`: what was encrypted is decrypted again under the same key, nonce and
  associated data.
-/

namespace PeerTrust.Gcm

/-! ## 1. The authenticator -/

/-- One bit of a product of two field elements: `bits` are left of `x`, `v` is `y` shifted on. -/
def mulBits : (bits : Nat) → (x v sum : Nat) → Nat
  | 0, _, _, sum => sum
  | bits + 1, x, v, sum =>
    let shifted := if v % 2 = 1 then (v / 2) ^^^ (0xe1 * 2 ^ 120) else v / 2
    mulBits bits x shifted (if x.testBit bits then sum ^^^ v else sum)

/-- The product in the field of 2^128 elements, the first bit being the most significant. -/
def mul (x y : Nat) : Nat := mulBits 128 x y 0

/-- Folds the blocks of a string, zero-filled at the end, into an authenticator. -/
def hash (h : Nat) (b : Bytes) (start : Nat) : Nat :=
  (b.chunks 16).foldl
    (fun y block => mul (y ^^^ Bytes.toNat (block ++ List.replicate (16 - block.length) 0)) h) start

/-- The tag over associated data and ciphertext. -/
def tag (keys : List Bytes) (nonce associated ciphertext : Bytes) : Bytes :=
  let h := (Aes.encrypt keys (List.replicate 16 0)).toNat
  let lengths := Bytes.ofNat 8 (8 * associated.length) ++ Bytes.ofNat 8 (8 * ciphertext.length)
  let y := hash h lengths (hash h ciphertext (hash h associated 0))
  Bytes.ofNat 16 (y ^^^ (Aes.encrypt keys (nonce ++ Bytes.ofNat 4 1)).toNat)

theorem tag_length (keys : List Bytes) (nonce associated ciphertext : Bytes) :
    (tag keys nonce associated ciphertext).length = 16 := Bytes.ofNat_length _ _

/-! ## 2. The key stream -/

/-- Key stream of `blocks` blocks, from the given counter on. -/
def keyStream (keys : List Bytes) (nonce : Bytes) : (blocks counter : Nat) → Bytes
  | 0, _ => []
  | blocks + 1, counter =>
    Aes.encrypt keys (nonce ++ Bytes.ofNat 4 counter) ++ keyStream keys nonce blocks (counter + 1)

/-- Adds a key stream to a text; octets beyond the stream pass through. -/
def mask : (text stream : Bytes) → Bytes
  | [], _ => []
  | text, [] => text
  | x :: text, k :: stream => (x ^^^ k) :: mask text stream

/-- Encryption and decryption are the same addition of a key stream. -/
def crypt (keys : List Bytes) (nonce text : Bytes) : Bytes :=
  mask text (keyStream keys nonce ((text.length + 15) / 16) 2)

theorem mask_length (text stream : Bytes) : (mask text stream).length = text.length := by
  fun_induction mask text stream <;> simp_all

theorem mask_mask (text stream : Bytes) : mask (mask text stream) stream = text := by
  fun_induction mask text stream with
  | case1 => simp [mask]
  | case2 text h => cases text <;> simp_all [mask]
  | case3 x text k stream ih =>
    simp only [mask, ih, List.cons.injEq, and_true]
    rw [UInt8.xor_assoc, UInt8.xor_self, UInt8.xor_zero]

theorem crypt_length (keys : List Bytes) (nonce text : Bytes) :
    (crypt keys nonce text).length = text.length := mask_length _ _

theorem crypt_crypt (keys : List Bytes) (nonce text : Bytes) :
    crypt keys nonce (crypt keys nonce text) = text := by
  unfold crypt
  rw [mask_length, mask_mask]

/-! ## 3. Sealing and opening -/

/-- The ciphertext of a text, followed by sixteen octets of tag. -/
def encrypt (key nonce associated text : Bytes) : Bytes :=
  let keys := Aes.expand key
  let ciphertext := crypt keys nonce text
  ciphertext ++ tag keys nonce associated ciphertext

/-- The text behind a ciphertext and its tag, if the tag is the right one. -/
def decrypt? (key nonce associated sealed : Bytes) : Option Bytes :=
  if sealed.length < 16 then none
  else
    let keys := Aes.expand key
    let ciphertext := sealed.take (sealed.length - 16)
    if tag keys nonce associated ciphertext = sealed.drop (sealed.length - 16) then
      some (crypt keys nonce ciphertext)
    else none

theorem encrypt_length (key nonce associated text : Bytes) :
    (encrypt key nonce associated text).length = text.length + 16 := by
  simp [encrypt, crypt_length, tag_length]

theorem decrypt?_encrypt (key nonce associated text : Bytes) :
    decrypt? key nonce associated (encrypt key nonce associated text) = some text := by
  have size := encrypt_length key nonce associated text
  have cut : (encrypt key nonce associated text).length - 16 =
      (crypt (Aes.expand key) nonce text).length := by rw [size, crypt_length]; omega
  unfold decrypt?
  rw [if_neg (by omega), cut]
  simp [encrypt, crypt_crypt]

end PeerTrust.Gcm
