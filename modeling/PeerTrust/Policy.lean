/-!
# The policy of the process

Whether OCSP responders may be asked is settled once for all verifiers together. It is off at
first, can be switched on, and then stays on.
-/

namespace PeerTrust

/-- What holds for all verifiers together. -/
structure SecurityPolicy where
  /-- Whether OCSP responders may be asked. -/
  ocspEnabled : Bool
deriving DecidableEq, Repr, Inhabited

namespace SecurityPolicy

/-- The policy before anything is switched on. -/
def initial : SecurityPolicy := ⟨false⟩

/-- Switches revocation checking on. -/
def enableRevocationChecking (_ : SecurityPolicy) : SecurityPolicy := ⟨true⟩

end SecurityPolicy

end PeerTrust
