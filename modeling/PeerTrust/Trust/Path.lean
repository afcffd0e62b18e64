import PeerTrust.Certificate

/-!
# Certification paths

The path from a certificate to an anchor, so that the issuer of each certificate on it is known.

* `Link` is a certificate with its issuer; a path is a list of links, the end entity first;
* `Path.build` walks from the end entity upwards. An anchor that issued the current certificate
  ends the walk; else the first presented certificate that issued it is taken, and taken away;
* `Path.swapRemove` is how one is taken away: the last one fills the gap.
-/

namespace PeerTrust

/-- A certificate and the certificate that issued it. -/
structure Link where
  certificate : Certificate
  issuer : Certificate
deriving DecidableEq, Repr, Inhabited

/-- Why no path was found. -/
inductive PathError where
  | endEntity (cause : CertificateError)
  | noIssuer (name : String)
  | tooLong
deriving DecidableEq, Repr, Inhabited

/-- The wording of an error. -/
def PathError.message : PathError → String
  | endEntity cause => s!"Certificate parsing failed: {cause.message}"
  | noIssuer name => s!"no issuer found for '{name}' among the presented intermediates"
  | tooLong => "certification path exceeds 10 certificates"

namespace Path

/-- The most certificates on a path, the anchor not counted. -/
def maxLength : Nat := 10

/-- Takes the element at a position away; the last element fills the gap. -/
def swapRemove {α : Type} (xs : List α) (i : Nat) : List α :=
  match xs.getLast? with
  | none => []
  | some last => (xs.set i last).dropLast

/-- The first element that satisfies a condition, and the others. -/
def take? {α : Type} (p : α → Bool) (xs : List α) : Option (α × List α) :=
  match xs.findIdx? p, xs.find? p with
  | some i, some x => some (x, swapRemove xs i)
  | _, _ => none

/-- Walks upwards from a certificate; `room` is the number of links that may still follow. -/
def walk (anchors : List Certificate) : (room : Nat) → (current : Certificate) →
    (pool : List Certificate) → Except PathError (List Link)
  | 0, _, _ => .error .tooLong
  | room + 1, current, pool =>
    match anchors.find? current.isIssuedBy with
    | some anchor => .ok [⟨current, anchor⟩]
    | none =>
      match take? current.isIssuedBy pool with
      | none => .error (.noIssuer current.displayName)
      | some (issuer, others) => do
        let above ← walk anchors room issuer others
        return ⟨current, issuer⟩ :: above

/-- The certificates among presented octets; what is not one is passed over. -/
def readable (ders : List Bytes) : List Certificate :=
  ders.filterMap fun der => (Certificate.ofDer der).toOption

/-- The path from an end entity over presented certificates to one of the anchors. -/
def build (endEntity : Bytes) (intermediates : List Bytes) (anchors : List Certificate) :
    Except PathError (List Link) :=
  match Certificate.ofDer endEntity with
  | .error e => .error (.endEntity e)
  | .ok c => walk anchors maxLength c (readable intermediates)

end Path

end PeerTrust
