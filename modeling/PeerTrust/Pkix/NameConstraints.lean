import PeerTrust.Pkix.GeneralName
import PeerTrust.Pkix.Search

/-!
# Constraints on names

An issuer may be restricted to names that it is permitted to certify, or from others that are
excluded. A kind of name for which nothing is permitted is not restricted.

* `Constraint.holds` says whether a name is one of those that a constraint describes;
* `NameConstraints.read` reads both lists, `NameConstraints.check` applies them to a certificate.
-/

namespace PeerTrust.Pkix

/-! ## 1. One constraint -/

namespace Constraint

/-- Whether an address lies in a network, of which mask and address are given. The mask is ones
first and zeros then, as far as it is looked at. -/
def inNetwork : (onesOnly : Bool) → (address network mask : Bytes) → Except Error Bool
  | onesOnly, a :: address, n :: network, m :: mask =>
    let isPrefixMask := [0, 128, 192, 224, 240, 248, 252, 254, 255].contains m
    if !isPrefixMask || (!onesOnly && m ≠ 0) then .error .malformedMask
    else if (a ^^^ n) &&& m ≠ 0 then .ok false
    else inNetwork (onesOnly && m = 255) address network mask
  | _, _, _, _ => .ok true

/-- Whether an address lies in a network of its own length. -/
def holdsOfAddress (address network : Bytes) : Except Error Bool :=
  let n := network.length
  if address.length ≠ 4 ∧ address.length ≠ 16 then .error .badEncoding
  else if n = 2 * address.length then
    inNetwork true address (network.take address.length) (network.drop address.length)
  else if n = 8 ∨ n = 32 then .ok false
  else .error .malformedMask

/-- Whether a DNS name lies in a domain. -/
def holdsOfDns (name domain : Bytes) : Except Error Bool :=
  if ¬ DnsName.isPresented name then .error .malformedName
  else if ¬ DnsName.isConstraint domain then .error .malformedConstraint
  else .ok (DnsName.matchesConstraint name domain)

/-- Whether a name is one that a constraint describes; nothing for names of another kind. Names of
directories are not looked into, so that none is permitted and every one is excluded. -/
def holds (excluding : Bool) (name constraint : GeneralName) : Except Error (Option Bool) :=
  match name, constraint with
  | .dns name, .dns domain => (holdsOfDns name domain).map some
  | .directory, .directory => .ok (some excluding)
  | .address address, .address network => (holdsOfAddress address network).map some
  | .unsupported n, .unsupported m => if n = m then .error .nameConstraintViolated else .ok none
  | _, _ => .ok none

/-- Reads a constraint; no bounds on depth are allowed. -/
def read : Reader GeneralName := Reader.nested Der.tagSequence .trailingData GeneralName.read

end Constraint

/-! ## 2. All constraints of an issuer -/

/-- What is permitted and what is excluded, as it is written. -/
structure NameConstraints where
  permitted : Option Bytes
  excluded : Option Bytes
deriving DecidableEq, Repr, Inhabited

namespace NameConstraints

/-- One of the two lists. -/
def subtrees (tag : UInt8) : Reader (Option Bytes) := do
  if ← Reader.nextIs tag then some <$> Reader.field tag else return none

/-- Reads constraints off the front of a string. -/
def read : Reader NameConstraints := do
  return ⟨← subtrees (Der.tagExplicit 0), ← subtrees (Der.tagExplicit 1)⟩

/-- Compares a name with permitted names, where `hit` and `missed` tell whether an earlier one was
the name or another of its kind. `fuel` bounds their number. -/
def checkPermitted (name : GeneralName) : (fuel : Nat) → (hit missed : Bool) → Bytes → Search Unit
  | 0, _, _, _ => pure ()
  | fuel + 1, hit, missed, b => do
    if b = [] then
      if missed && !hit then throw .nameConstraintViolated
    else
      Search.spendComparison
      let (constraint, rest) ← liftExcept (Constraint.read b)
      match ← liftExcept (Constraint.holds false name constraint) with
      | none => checkPermitted name fuel hit missed rest
      | some holds => checkPermitted name fuel (hit || holds) (missed || !holds) rest

/-- Compares a name with excluded names. `fuel` bounds their number. -/
def checkExcluded (name : GeneralName) : (fuel : Nat) → Bytes → Search Unit
  | 0, _ => pure ()
  | fuel + 1, b => do
    if b ≠ [] then
      Search.spendComparison
      let (constraint, rest) ← liftExcept (Constraint.read b)
      if (← liftExcept (Constraint.holds true name constraint)) = some true then
        throw .nameConstraintViolated
      checkExcluded name fuel rest

/-- Compares one name with all constraints. -/
def checkName (n : NameConstraints) (name : GeneralName) : Search Unit := do
  let permitted := n.permitted.getD []
  let excluded := n.excluded.getD []
  checkPermitted name (permitted.length + 1) false false permitted
  checkExcluded name (excluded.length + 1) excluded

/-- Compares names with all constraints, up to the first that cannot be read. -/
def checkNames (n : NameConstraints) : List (Except Error GeneralName) → Search Unit
  | [] => pure ()
  | .error e :: _ => throw e
  | .ok name :: rest => do
    n.checkName name
    checkNames n rest

/-- Compares the names of a certificate with all constraints, its subject last. -/
def check (n : NameConstraints) (c : Certificate) : Search Unit := do
  n.checkNames c.presentedNames
  n.checkName .directory

end NameConstraints

end PeerTrust.Pkix
