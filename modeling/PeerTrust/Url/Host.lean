import PeerTrust.Url.Domain
import PeerTrust.Url.Percent

/-!
# Hosts

* `Host` is a domain name, an address of one of two lengths, or for schemes without rules of their
  own a text;
* `Host.parse` reads the host of a special scheme, `Host.parseOpaque` that of any other;
* `Host.toText` is the written form, in which every address has one spelling.
-/

namespace PeerTrust

/-- Why a text is no URL. -/
inductive UrlError where
  | relative
  | emptyHost
  | invalidPort
  | invalidIpv4
  | invalidIpv6
  | invalidDomain
  | invalidCharacter
deriving DecidableEq, Repr, Inhabited

/-- The wording of an error. -/
def UrlError.message : UrlError → String
  | relative => "relative URL without a base"
  | emptyHost => "empty host"
  | invalidPort => "invalid port number"
  | invalidIpv4 => "invalid IPv4 address"
  | invalidIpv6 => "invalid IPv6 address"
  | invalidDomain => "invalid international domain name"
  | invalidCharacter => "invalid domain character"

/-- Where a server is found. -/
inductive Host where
  | domain (name : String)
  | ipv4 (address : Nat)
  | ipv6 (pieces : List Nat)
deriving DecidableEq, Repr, Inhabited

namespace Host

/-! ## 1. Addresses of 32 bits -/

/-- The number that digits of a base denote. -/
def digitsToNat? (base : Nat) (cs : List Char) : Option Nat :=
  cs.foldlM (fun n c =>
    match Bytes.hexValue? c with
    | some d => if d < base then some (base * n + d) else none
    | none => none) 0

/-- A number of an address: sixteen is its base after `0x`, eight after another zero. -/
def ipv4Number? (cs : List Char) : Option Nat :=
  match cs with
  | [] => none
  | '0' :: 'x' :: rest => digitsToNat? 16 rest
  | '0' :: 'X' :: rest => digitsToNat? 16 rest
  | '0' :: c :: rest => digitsToNat? 8 (c :: rest)
  | _ => digitsToNat? 10 cs

/-- The parts of a name between its dots, an empty last one left out. -/
def dottedParts (cs : List Char) : List (List Char) :=
  let parts := Domain.labels cs
  if parts.getLast? = some [] then parts.dropLast else parts

/-- Whether a name ends in a number, so that it has to be an address. -/
def endsInNumber (cs : List Char) : Bool :=
  match (dottedParts cs).getLast? with
  | none => false
  | some last => (last ≠ [] && last.all Char.isDigit) || (ipv4Number? last).isSome

/-- An address: the last number takes all the octets that the others leave. -/
def ipv4? (cs : List Char) : Option Nat := do
  let numbers ← (dottedParts cs).mapM ipv4Number?
  let last ← numbers.getLast?
  let others := numbers.dropLast
  if 4 < numbers.length ∨ others.any (255 < ·) ∨ 256 ^ (4 - others.length) ≤ last then none
  else
    return (List.range others.length).foldl
      (fun n i => n + others.getD i 0 * 256 ^ (3 - i)) last

/-- The four octets of an address with dots. -/
def ipv4Text (address : Nat) : String :=
  ".".intercalate ((Bytes.ofNat 4 address).map fun x => toString x.toNat)

/-! ## 2. Addresses of 128 bits -/

/-- The pieces before and after a run of zeros that is left out. -/
structure Pieces where
  before : List Nat
  after : Option (List Nat)
deriving DecidableEq, Repr, Inhabited

namespace Pieces

/-- How many pieces are taken; a run that is left out counts as one. -/
def count (p : Pieces) : Nat := p.before.length + (p.after.map (·.length + 1)).getD 0

/-- One more piece. -/
def push (p : Pieces) (n : Nat) : Pieces :=
  match p.after with
  | none => { p with before := p.before ++ [n] }
  | some after => { p with after := some (after ++ [n]) }

/-- All eight pieces. -/
def all? (p : Pieces) : Option (List Nat) :=
  match p.after with
  | none => if p.before.length = 8 then some p.before else none
  | some after => some (p.before ++ List.replicate (8 - p.before.length - after.length) 0 ++ after)

end Pieces

/-- A decimal octet without leading zeros. -/
def octet? (cs : List Char) : Option Nat :=
  match cs with
  | [] => none
  | ['0'] => some 0
  | '0' :: _ => none
  | _ => (digitsToNat? 10 cs).bind fun n => if n < 256 then some n else none

/-- The two pieces of an address of 32 bits at the end. -/
def ipv4Pieces? (cs : List Char) : Option (List Nat) := do
  match ← (Domain.labels cs).mapM octet? with
  | [a, b, c, d] => some [256 * a + b, 256 * c + d]
  | _ => none

/-- Reads pieces; `fuel` bounds their number. -/
def readPieces? : (fuel : Nat) → Pieces → List Char → Option Pieces
  | _, p, [] => some p
  | 0, _, _ :: _ => none
  | fuel + 1, p, cs =>
    if p.count = 8 then none
    else
      match cs with
      | ':' :: rest =>
        if p.after.isSome then none else readPieces? fuel { p with after := some [] } rest
      | _ =>
        let digits := (cs.take 4).takeWhile fun c => (Bytes.hexValue? c).isSome
        let value := (digitsToNat? 16 digits).getD 0
        match cs.drop digits.length with
        | [] => some (p.push value)
        | ':' :: rest => if rest = [] then none else readPieces? fuel (p.push value) rest
        | '.' :: _ =>
          if digits = [] ∨ 6 < p.count then none
          else (ipv4Pieces? cs).map fun ns => ns.foldl Pieces.push p
        | _ => none

/-- An address as it stands between brackets. -/
def ipv6? (cs : List Char) : Option (List Nat) :=
  match cs with
  | [] | [_] => none
  | ':' :: ':' :: rest => (readPieces? (cs.length) ⟨[], some []⟩ rest).bind Pieces.all?
  | ':' :: _ => none
  | _ => (readPieces? cs.length ⟨[], none⟩ cs).bind Pieces.all?

/-- The lengths of the runs of zeros that begin at each place. -/
def zeroRuns : List Nat → List Nat
  | [] => []
  | n :: rest => (if n = 0 then 1 + (zeroRuns rest).headD 0 else 0) :: zeroRuns rest

/-- A piece in hexadecimal without leading zeros. -/
def pieceText (n : Nat) : String := String.ofList (Nat.toDigits 16 n)

/-- The written form: the first longest run of at least two zeros is left out. -/
def ipv6Text (pieces : List Nat) : String :=
  let runs := zeroRuns pieces
  let longest := runs.foldl max 0
  let join (ns : List Nat) := ":".intercalate (ns.map pieceText)
  if longest < 2 then join pieces
  else
    let start := runs.findIdx (· = longest)
    join (pieces.take start) ++ "::" ++ join (pieces.drop (start + longest))

/-! ## 3. Hosts -/

/-- The text between brackets. -/
def bracketed? (cs : List Char) : Option (List Char) :=
  match cs with
  | '[' :: rest => some rest
  | _ => none

/-- Reads an address in brackets. -/
def parseBracketed (inner : List Char) : Except UrlError Host :=
  if inner.getLast? = some ']' then
    match ipv6? inner.dropLast with
    | some pieces => .ok (.ipv6 pieces)
    | none => .error .invalidIpv6
  else .error .invalidIpv6

/-- Reads the host of a special scheme. -/
def parse (cs : List Char) : Except UrlError Host :=
  match bracketed? cs with
  | some inner => parseBracketed inner
  | none =>
    match Domain.toAscii? (Percent.decode (Bytes.ofText (String.ofList cs))) with
    | none => .error .invalidDomain
    | some "" => .error .emptyHost
    | some name =>
      if endsInNumber name.toList then
        match ipv4? name.toList with
        | some address => .ok (.ipv4 address)
        | none => .error .invalidIpv4
      else .ok (.domain name)

/-- Reads the host of a scheme without rules of its own. -/
def parseOpaque (cs : List Char) : Except UrlError Host :=
  match bracketed? cs with
  | some inner => parseBracketed inner
  | none =>
    if cs.any fun c => c.toNat = 0 || "\t\n\r #/:<>?@[\\]^|".contains c then
      .error .invalidCharacter
    else .ok (.domain (Percent.encode Percent.control cs))

/-- The written form of a host. -/
def toText : Host → String
  | domain name => name
  | ipv4 address => ipv4Text address
  | ipv6 pieces => "[" ++ ipv6Text pieces ++ "]"

end Host

end PeerTrust
