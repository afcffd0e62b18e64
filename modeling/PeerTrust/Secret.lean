import PeerTrust.Bytes

/-!
# Secrets

Passwords and private keys, kept apart from other octets so that messages never show them.

* `Secret.ofPassword` takes a password; an empty one is none;
* `Secret.toText` is all that a message may say of a secret.
-/

namespace PeerTrust

/-- Octets that no message shows. -/
structure Secret where
  octets : Bytes
deriving DecidableEq, Inhabited

namespace Secret

/-- The secret that a text is, empty or not. -/
def ofText (s : String) : Secret := ⟨Bytes.ofText s⟩

/-- The secret of a password; an empty one is none. -/
def ofPassword (password : Option String) : Option Secret :=
  (password.filter (· ≠ "")).map ofText

/-- What a message says of a secret. -/
def toText (_ : Secret) : String := "SecretBytes([REDACTED])"

end Secret

instance : Repr Secret := ⟨fun s _ => s.toText⟩

end PeerTrust
