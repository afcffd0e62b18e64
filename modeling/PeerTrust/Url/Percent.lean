import PeerTrust.Bytes

/-!
# Percent encoding

The parts of a URL keep apart by writing some octets as a percent sign with two digits.

* `Percent.encode` writes a text so that no octet of a set, and none outside ASCII, is left;
* `Percent.decode` reads what is so written; a percent sign without two digits stands for itself;
* `Percent.control`, `fragment`, `query`, `specialQuery`, `path` and `userInfo` are the sets of the
  parts of a URL.
-/

namespace PeerTrust.Percent

/-- The digits of an octet after a percent sign, in upper case. -/
def upperPair (x : UInt8) : List Char := (Bytes.hexPair x).map Char.toUpper

/-- The written form of one character. -/
def encodeChar (unsafeChar : Char → Bool) (c : Char) : List Char :=
  if c.toNat < 128 ∧ !unsafeChar c then [c]
  else (Bytes.ofText (String.ofList [c])).flatMap fun x => '%' :: upperPair x

/-- Writes a text; `unsafeChar` tells the characters that must not be left. -/
def encode (unsafeChar : Char → Bool) (cs : List Char) : String :=
  String.ofList (cs.flatMap (encodeChar unsafeChar))

/-- The octets that a written form stands for. -/
def decode : Bytes → Bytes
  | [] => []
  | [x] => [x]
  | [x, y] => [x, y]
  | x :: h :: l :: rest =>
    if x = 37 then
      match Bytes.hexValue? (Char.ofNat h.toNat), Bytes.hexValue? (Char.ofNat l.toNat) with
      | some hi, some lo => UInt8.ofNat (16 * hi + lo) :: decode rest
      | _, _ => x :: decode (h :: l :: rest)
    else x :: decode (h :: l :: rest)

/-- What is never left: control characters. -/
def control (c : Char) : Bool := c.toNat < 32 || c.toNat = 127

/-- What is not left in a fragment. -/
def fragment (c : Char) : Bool := control c || " \"<>\x60".contains c

/-- What is not left in a query. -/
def query (c : Char) : Bool := control c || " \"#<>".contains c

/-- What is not left in the query of a special scheme. -/
def specialQuery (c : Char) : Bool := query c || c = '\''

/-- What is not left in a path. -/
def path (c : Char) : Bool := fragment c || "#?\x7b\x7d".contains c

/-- What is not left in the name and the password of a user. -/
def userInfo (c : Char) : Bool := path c || "/:;=@[\\]^|".contains c

end PeerTrust.Percent
