import PeerTrust.Pkix.Certificate
import PeerTrust.Pkix.ServerName
import PeerTrust.Text.Lossy

/-!
# Names in certificates

* `Pkix.GeneralName` is a name of one of the kinds that a certificate presents or a constraint
  restricts;
* `Certificate.presentedNames` are the alternative names of a subject, up to the first that cannot
  be read;
* `Certificate.checkName` asks whether a certificate is valid for the name of a server.
-/

namespace PeerTrust.Pkix

/-! ## 1. Names -/

/-- A name; of directories it does not matter which. -/
inductive GeneralName where
  | dns (name : Bytes)
  | directory
  | address (octets : Bytes)
  | uri (text : Bytes)
  | unsupported (number : UInt8)
deriving DecidableEq, Repr, Inhabited

namespace GeneralName

/-- Reads a name. -/
def read : Reader GeneralName := do
  let (tag, content) ← Reader.element
  if tag = 0x82 then return .dns content
  else if tag = 0xa4 then return .directory
  else if tag = 0x86 then return .uri content
  else if tag = 0x87 then return .address content
  else if [0xa0, 0x81, 0xa3, 0xa5, 0x88].contains tag then return .unsupported (tag &&& 0x1f)
  else throw .badEncoding

/-- Names one after the other; nothing follows one that cannot be read. `fuel` bounds their
number. -/
def listFrom : (fuel : Nat) → Bytes → List (Except Error GeneralName)
  | 0, _ => []
  | _, [] => []
  | fuel + 1, b =>
    match read b with
    | .ok (name, rest) => .ok name :: listFrom fuel rest
    | .error e => [.error e]

/-- Names one after the other. -/
def list (b : Bytes) : List (Except Error GeneralName) := listFrom b.length b

/-! ## 2. Wording -/

/-- Two hexadecimal digits for each octet, without zeros in front. -/
def pieceText (x y : UInt8) : String := Host.pieceText (256 * x.toNat + y.toNat)

/-- The pieces of an address after the first. Zeros are left out, and two colons stand for those
that something follows; `skipping` tells that some were left out just before. -/
def laterPieces : (skipping : Bool) → Bytes → String
  | _, 0 :: 0 :: rest => laterPieces true rest
  | skipping, x :: y :: rest =>
    (if skipping then "::" else ":") ++ pieceText x y ++ laterPieces false rest
  | _, _ => ""

/-- An address, or the octets of what is none. -/
def addressText (b : Bytes) : String :=
  if b.length = 4 then Address.dotted b
  else
    match b with
    | x :: y :: rest =>
      if b.length = 16 then pieceText x y ++ laterPieces false rest
      else "[invalid: " ++ ", ".intercalate (b.map fun x => Bytes.toHex [x]) ++ "]"
    | _ => "[invalid: " ++ ", ".intercalate (b.map fun x => Bytes.toHex [x]) ++ "]"

/-- How a message shows a name. -/
def describe : GeneralName → String
  | dns name => "DnsName(\"" ++ Text.lossy name ++ "\")"
  | directory => "DirectoryName"
  | address octets => "IpAddress(" ++ addressText octets ++ ")"
  | uri text => "UniformResourceIdentifier(\"" ++ Text.lossy text ++ "\")"
  | unsupported number => "Unsupported(0x" ++ Bytes.toHex [number] ++ ")"

/-- Whether a name is that of a server. -/
def isOf (server : ServerName) : GeneralName → Bool
  | dns name =>
    match server with
    | .dns reference => DnsName.matchesReference name (Bytes.ofText reference)
    | .address _ => false
  | address octets => server = .address octets
  | _ => false

end GeneralName

/-! ## 3. Certificates -/

namespace Certificate

/-- The alternative names of the subject, up to the first that cannot be read. -/
def presentedNames (c : Certificate) : List (Except Error GeneralName) :=
  GeneralName.list (c.altNames.getD [])

/-- Looks for the name of a server among names; one that cannot be read ends the search. -/
def findName (server : ServerName) (shown : List String) :
    List (Except Error GeneralName) → Except Error Unit
  | [] => .error (.wrongName server.toText shown)
  | .error e :: _ => .error e
  | .ok name :: rest => if name.isOf server then .ok () else findName server shown rest

/-- Whether a certificate is valid for the name of a server. -/
def checkName (c : Certificate) (server : ServerName) : Except Error Unit :=
  findName server (c.presentedNames.filterMap fun name => name.toOption.map (·.describe))
    c.presentedNames

end Certificate

end PeerTrust.Pkix
