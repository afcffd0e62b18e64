import PeerTrust.Revocation.Crl

/-!
# CRLs at hand

CRLs from configured files and from the trust store.

* `LocalCrls.load` reads them all, or says which one cannot be read;
* `LocalCrls.check` asks every one that covers a certificate. A revocation in any of them counts,
  then a statement that the certificate is valid; failing both, the last error is all that is known.
-/

namespace PeerTrust

/-- CRLs at hand, in the order in which they were given. -/
abbrev LocalCrls := List Crl

namespace LocalCrls

/-- Reads the CRL in a file. -/
def loadFile (files : Files) (path : String) : Except CrlError Crl :=
  match files path with
  | .error e => .error (.unreadable path e)
  | .ok content =>
    match Crl.parse content with
    | .error e => .error (.inFile path e)
    | .ok crl => .ok crl

/-- Reads CRLs from files and then from octets. -/
def load (files : Files) (paths : List String) (ders : List Bytes) : Except CrlError LocalCrls := do
  let fromFiles ← paths.mapM (loadFile files)
  let fromStore ← ders.mapM Crl.parse
  return fromFiles ++ fromStore

/-- What several CRLs say together. -/
def verdict (answers : List (Except CrlError CrlStatus)) : Option (Except CrlError CrlStatus) :=
  if answers.any fun | .ok .revoked => true | _ => false then some (.ok .revoked)
  else if answers.any fun | .ok .valid => true | _ => false then some (.ok .valid)
  else answers.getLast?

/-- What the CRLs at hand say of a certificate; nothing where none covers it. -/
def check (crls : LocalCrls) (c issuer : Certificate) (now : Nat) :
    Option (Except CrlError CrlStatus) :=
  verdict ((crls.filter (·.covers c)).map (·.statusOf c issuer now))

end LocalCrls

end PeerTrust
