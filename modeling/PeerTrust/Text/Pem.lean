import PeerTrust.Text.Base64
import PeerTrust.Text.Blank

/-!
# PEM, blocks of octets inside a text

* `Pem.Block` is a tag with its octets; `Pem.Block.encode` writes one;
* `Pem.read` reads all blocks of a file in order, or says what is wrong with the first bad one.

A block begins after `-----BEGIN` and a blank, ends before `-----END` and a blank, and its tag
stands on both sides. The search for a mark does not go back: where a partial match fails, it
begins anew with the octet after the one that failed.
-/

namespace PeerTrust.Pem

/-- A tagged string of octets. -/
structure Block where
  tag : String
  contents : Bytes
deriving DecidableEq, Repr, Inhabited

/-- What is wrong with a block. -/
inductive Error where
  | missingBegin
  | missingEnd
  | mismatch (first last : String)
  | invalidHeader (line : String)
  | invalidData
  | invalidText
deriving DecidableEq, Repr, Inhabited

/-- The wording of an error. -/
def Error.message : Error → String
  | missingBegin => "missing BEGIN tag"
  | missingEnd => "missing END tag"
  | mismatch first last => s!"mismatching BEGIN (\"{first}\") and END (\"{last}\") tags"
  | invalidHeader line => s!"invalid header: {line}"
  | invalidData => "invalid data: not canonical base64"
  | invalidText => "invalid utf-8 value: not a text"

/-! ## 1. Cutting a file into blocks -/

/-- Looks for a mark of which `todo` is left to be matched; `seen` holds the octets passed so far,
the last one first, and `matched` how many of them belong to the mark. -/
def searchFrom (mark : Bytes) : (seen todo : Bytes) → (matched : Nat) → Bytes →
    Option (Bytes × Bytes)
  | seen, [], matched, rest => some ((seen.drop matched).reverse, rest)
  | _, _ :: _, _, [] => none
  | seen, t :: todo, matched, x :: rest =>
    if x = t then searchFrom mark (x :: seen) todo (matched + 1) rest
    else searchFrom mark (x :: seen) mark 0 rest

/-- What comes before the first mark, and what comes after it. -/
def search (mark b : Bytes) : Option (Bytes × Bytes) := searchFrom mark [] mark 0 b

/-- Passes over blanks, tabs and line ends. -/
def skipSpace (b : Bytes) : Bytes := b.dropWhile fun x => x = 32 || x = 9 || x = 10 || x = 13

/-- The parts of a block before they are looked at. -/
structure Parts where
  first : Bytes
  headers : Bytes
  data : Bytes
  last : Bytes
deriving DecidableEq, Repr, Inhabited

/-- Splits headers from data at the first blank line. -/
def splitHeaders (body : Bytes) : Bytes × Bytes :=
  match search [10, 10] body with
  | some parts => parts
  | none => (search [13, 10, 13, 10] body).getD ([], body)

/-- The parts of the next block, and what follows it. -/
def nextParts? (b : Bytes) : Option (Parts × Bytes) := do
  let (_, b) ← search (Bytes.ofText "-----BEGIN ") b
  let (first, b) ← search (Bytes.ofText "-----") b
  let (body, b) ← search (Bytes.ofText "-----END ") (skipSpace b)
  let (last, b) ← search (Bytes.ofText "-----") b
  let (headers, data) := splitHeaders body
  return (⟨first, headers, data, last⟩, skipSpace b)

/-! ## 2. One block -/

/-- The text of a part. -/
def text (b : Bytes) : Except Error String :=
  match b.toText? with
  | some s => .ok s
  | none => .error .invalidText

/-- A line without the carriage return at its end. -/
def withoutReturn (line : String) : String :=
  if line.endsWith "\r" then (line.dropEnd 1).toString else line

/-- The lines of a text. A carriage return belongs to the line end where a line feed follows; an
empty line at the end does not count. -/
def lines (s : String) : List String :=
  match (s.splitOn "\n").reverse with
  | [] => []
  | last :: before => (before.map withoutReturn).reverse ++ (if last = "" then [] else [last])

/-- The block that parts make. -/
def Parts.block (p : Parts) : Except Error Block := do
  let first ← text p.first
  if first = "" then throw .missingBegin
  let last ← text p.last
  if last = "" then throw .missingEnd
  if first ≠ last then throw (.mismatch first last)
  let data ← text p.data
  match Base64.decode? (data.toList.filter (!Text.isBlank ·)) with
  | none => throw .invalidData
  | some contents =>
    let headers ← text p.headers
    match (lines headers).find? (!·.contains ':') with
    | some line => throw (.invalidHeader line)
    | none => return ⟨first, contents⟩

/-! ## 3. Whole files -/

/-- Reads blocks one after the other; `fuel` bounds their number. -/
def readFuel : (fuel : Nat) → Bytes → Except Error (List Block)
  | 0, _ => .ok []
  | fuel + 1, b =>
    match nextParts? b with
    | none => .ok []
    | some (parts, rest) => do
      let block ← parts.block
      return block :: (← readFuel fuel rest)

/-- All blocks of a file, in order. A block that is not complete ends the file. -/
def read (b : Bytes) : Except Error (List Block) := readFuel b.length b

/-- Whether a file is to be read as PEM. -/
def looksLikePem (b : Bytes) : Bool := (Bytes.ofText "-----BEGIN").isPrefixOf b

/-- Lines of 64 characters, each with its line end; `fuel` bounds their number. -/
def wrap : (fuel : Nat) → List Char → List Char
  | 0, _ => []
  | _, [] => []
  | fuel + 1, cs => cs.take 64 ++ '\r' :: '\n' :: wrap fuel (cs.drop 64)

/-- Writes a block, with lines of 64 characters that end in carriage return and line feed. -/
def Block.encode (b : Block) : String :=
  let body := Base64.encode b.contents
  "-----BEGIN " ++ b.tag ++ "-----\r\n" ++ String.ofList (wrap body.length body) ++
  "-----END " ++ b.tag ++ "-----\r\n"

end PeerTrust.Pem
