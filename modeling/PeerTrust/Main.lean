import PeerTrust.CommandLine
import PeerTrust.Hash.Sha256
import Std.Time.DateTime.Timestamp

/-!
# The program

Validates one certificate against a trust store and prints whether it is valid. The program has no
connection to a network, so revocation data has to be in the trust store.
-/

namespace PeerTrust.Program

/-- Why a file of the disk could not be read. -/
def causeOf : IO.Error → FileError
  | .inappropriateType _ code _ => if code = 20 then .notDirectory else .isDirectory
  | _ => .notFound

/-- What a file of the disk holds. -/
def readFile (path : String) : IO (String × Except FileError Bytes) := do
  try
    return (path, .ok (← IO.FS.readBinFile path).data.toList)
  catch e =>
    return (path, .error (causeOf e))

/-- The files that arguments name, read at once. -/
def readFiles (args : List String) : IO Files := do
  let contents ←
    match Arguments.parse args with
    | .ok a => [a.certificate, a.truststore].mapM readFile
    | .error _ => pure []
  return fun path => (contents.lookup path).getD (.error .notFound)

/-- The outside of this program: no network, fresh nonces, and the clock of the system. -/
def outside : IO Outside := do
  let seed := (← IO.getRandomBytes 32).data.toList
  let now ← Std.Time.Timestamp.now
  let seconds := now.toSecondsSinceUnixEpoch.val.toNat
  let network := Http.Network.unreachable "Network is unreachable (os error 101)"
  return Http.outside network RevocationConfig.standard.maxResponse
    (fun calls => (Sha256.digest (seed ++ Bytes.ofNat 8 calls.length)).take 16) fun _ => seconds

end PeerTrust.Program

open PeerTrust in
/-- Validates the certificate that the arguments name. -/
def main (args : List String) : IO UInt32 := do
  let result := CommandLine.run (← Program.outside) (← Program.readFiles args) args
  match result.output with
  | some text => IO.print text
  | none => if result.status = 0 then IO.print CommandLine.usage else IO.eprint CommandLine.usage
  return UInt32.ofNat result.status
