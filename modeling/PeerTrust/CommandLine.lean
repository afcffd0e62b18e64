import PeerTrust.Http.Transport
import PeerTrust.Trust.Verifier

/-!
# The command line

One certificate is validated against a trust store, as that of a client or, with the option
`--server`, as that of a server.

* `Arguments.parse` reads arguments: up to four of them in order, and the option at any place;
* `CommandLine.check` validates, `CommandLine.run` gives the line to print and the exit status.
-/

namespace PeerTrust

/-! ## 1. Arguments -/

/-- What is asked for. -/
structure Arguments where
  certificate : String
  truststore : String
  storeType : String
  password : Option String
  /-- The name of the server that the certificate is for. -/
  server : Option String
deriving DecidableEq, Repr, Inhabited

namespace Arguments

/-- Why nothing is validated. -/
inductive Usage where
  /-- The help text is asked for. -/
  | help
  /-- The arguments make no sense. -/
  | wrong
deriving DecidableEq, Repr, Inhabited

/-- Arguments in order, and the option. -/
structure Given where
  values : List String
  server : Option String
deriving DecidableEq, Repr, Inhabited

/-- The most arguments besides the option. -/
def most : Nat := 4

/-- One more argument; the paths, which are the first two, are not empty. -/
def Given.add (g : Given) (value : String) : Except Usage Given :=
  if most ≤ g.values.length ∨ (g.values.length < 2 ∧ value = "") then .error .wrong
  else .ok { g with values := g.values ++ [value] }

/-- The option, which is given once. -/
def Given.setServer (g : Given) (name : String) : Except Usage Given :=
  if g.server.isSome then .error .wrong else .ok { g with server := some name }

/-- Whether an argument is an option; a single hyphen is none. -/
def isOption (arg : String) : Bool := arg.startsWith "-" && arg ≠ "-"

/-- Takes all that is left as arguments in order. -/
def plain : Given → List String → Except Usage Given
  | g, [] => .ok g
  | g, arg :: rest => do plain (← g.add arg) rest

/-- What follows the name of the option and an equals sign. -/
def attached? (arg : String) : Option String :=
  if arg.startsWith "--server=" then some (arg.drop 9).toString else none

/-- Takes one argument after the other; after two hyphens nothing is an option. -/
def collect : Given → List String → Except Usage Given
  | g, [] => .ok g
  | g, arg :: rest =>
    if arg = "--" then plain g rest
    else if arg = "--help" ∨ arg.startsWith "-h" then .error .help
    else if arg = "--server" then
      match rest with
      | name :: rest => do
        if isOption name then throw .wrong
        collect (← g.setServer name) rest
      | [] => .error .wrong
    else
      match attached? arg with
      | some name => do collect (← g.setServer name) rest
      | none => do
        if isOption arg then throw .wrong
        collect (← g.add arg) rest

/-- Reads arguments. -/
def parse (args : List String) : Except Usage Arguments := do
  let g ← collect ⟨[], none⟩ args
  match g.values with
  | [certificate, truststore, storeType] =>
    return ⟨certificate, truststore, storeType, none, g.server⟩
  | [certificate, truststore, storeType, password] =>
    return ⟨certificate, truststore, storeType, some password, g.server⟩
  | _ => throw .wrong

/-- In which role the certificate is validated. -/
def role (a : Arguments) : Except TrustError PeerRole :=
  match a.server with
  | none => .ok .client
  | some name =>
    match Pkix.ServerName.parse? name with
    | some n => .ok (.server n)
    | none => .error .badRoleName

end Arguments

/-! ## 2. Validation -/

namespace CommandLine

/-- The result of a program: the exit status, and what it prints if that is no usage text. -/
structure Result where
  status : Nat
  output : Option String
deriving DecidableEq, Repr, Inhabited

/-- How the program is used. -/
def usage : String :=
  "Validate a certificate against a trust store\n\n" ++
  "Usage: peertrust [--server <NAME>] <CERTIFICATE> <TRUSTSTORE> <STORE_TYPE> [PASSWORD]\n"

/-- Validates a certificate without intermediates, now. -/
def check (o : Outside) (files : Files) (a : Arguments) : Except TrustError Unit := do
  let role ← a.role
  let certificate ← (Certificate.load files a.certificate).mapError .certificate
  let config := StoreConfig.ofTexts a.truststore a.password a.storeType
  let store ← (CredentialStore.load .trust files config).mapError .store
  let checker ← (RevocationChecker.load .standard files store.crls).mapError .badCrls
  let verifier ← PeerVerifier.derive .trust store
  let policy := SecurityPolicy.initial.enableRevocationChecking
  (verifier.validateNow o policy role certificate [] checker []).1

/-- Runs the program. -/
def run (o : Outside) (files : Files) (args : List String) : Result :=
  match Arguments.parse args with
  | .error .help => ⟨0, none⟩
  | .error .wrong => ⟨2, none⟩
  | .ok a =>
    match check o files a with
    | .ok () => ⟨0, some s!"{a.certificate}: valid\n"⟩
    | .error e => ⟨1, some s!"{a.certificate}: {e.message}\n"⟩

end CommandLine

end PeerTrust
