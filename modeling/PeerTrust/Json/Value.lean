import PeerTrust.Bytes
import PeerTrust.Text.Decimal

/-!
# JSON texts

* `Json.Value` is what a text holds. A text that breaks off or goes wrong still has a value: the
  place where it goes wrong is `malformed`, and what encloses it is not closed. A reader can thus
  tell which of two faults comes first;
* numbers that are too large, and strings with half a pair of surrogates, are well formed but have
  no value of their own: they are `unusable`, and harm only where a value is wanted;
* `Json.read` reads a text.
-/

namespace PeerTrust.Json

/-- A number: whole where its text is and it fits into 64 bits, with or without sign, else the
nearest one of double precision. -/
inductive Number where
  | whole (n : Int)
  | fraction (negative : Bool) (x : Binary)
deriving DecidableEq, Repr, Inhabited

/-- What a text holds. -/
inductive Value where
  | null
  | bool (b : Bool)
  | number (n : Number)
  | string (s : String)
  | array (items : List Value) (closed : Bool)
  | object (members : List (String × Value)) (closed : Bool)
  | unusable
  | malformed
deriving Repr, Inhabited

/-- Whether all of a value could be read. -/
def Value.isIntact : Value → Bool
  | array _ closed => closed
  | object _ closed => closed
  | malformed => false
  | _ => true

/-! ## 1. Numbers -/

/-- Whether a character is a decimal digit. -/
def isDigit (c : Char) : Bool := '0' ≤ c && c ≤ '9'

/-- The number that digits denote. -/
def digitsToNat (cs : List Char) : Nat := cs.foldl (fun n c => 10 * n + (c.toNat - 48)) 0

/-- The digits after a point, where there are any. -/
def fraction? (cs : List Char) : Option (List Char × List Char) :=
  match cs with
  | '.' :: rest =>
    match rest.takeWhile isDigit with
    | [] => none
    | digits => some (digits, rest.drop digits.length)
  | _ => some ([], cs)

/-- The exponent after the letter for it, where there is one. -/
def exponent? (cs : List Char) : Option (Option Int × List Char) :=
  match cs with
  | [] => some (none, [])
  | e :: rest =>
    if e = 'e' ∨ e = 'E' then
      let (sign, rest) : Int × List Char :=
        match rest with
        | '-' :: rest => (-1, rest)
        | '+' :: rest => (1, rest)
        | _ => (1, rest)
      match rest.takeWhile isDigit with
      | [] => none
      | digits => some (some (sign * digitsToNat digits), rest.drop digits.length)
    else some (none, cs)

/-- The number with the given sign, digits and exponent. -/
def number? (negative : Bool) (before after : List Char) (exponent : Option Int) :
    Option Number :=
  let n := digitsToNat before
  if after = [] ∧ exponent = none ∧ ((negative ∧ 0 < n ∧ n ≤ 2 ^ 63) ∨ (!negative ∧ n < 2 ^ 64)) then
    some (.whole (if negative then -n else n))
  else
    (Binary.ofDecimal? (digitsToNat (before ++ after)) (exponent.getD 0 - after.length)).map
      (.fraction negative ·)

/-- Reads a number after its sign. -/
def readNumber? (negative : Bool) (cs : List Char) : Option (Value × List Char) := do
  let before := cs.takeWhile isDigit
  if before = [] ∨ (before.head? = some '0' ∧ before.length ≠ 1) then none
  else
    let (after, rest) ← fraction? (cs.drop before.length)
    let (exponent, rest) ← exponent? rest
    return (((number? negative before after exponent).map Value.number).getD .unusable, rest)

/-! ## 2. Strings -/

/-- The number that four hexadecimal digits denote. -/
def hex4? (cs : List Char) : Option (Nat × List Char) :=
  match cs with
  | a :: b :: c :: d :: rest => do
    let a ← Bytes.hexValue? a
    let b ← Bytes.hexValue? b
    let c ← Bytes.hexValue? c
    let d ← Bytes.hexValue? d
    return (4096 * a + 256 * b + 16 * c + d, rest)
  | _ => none

/-- A character of a string, or nothing where half a pair of surrogates stands for one. -/
abbrev Unit16 := Option Char

/-- The character after a backslash and the letter for a code unit. Of two units only a pair of
surrogates makes one; half a pair makes none. -/
def unit? (cs : List Char) : Option (Unit16 × List Char) := do
  let (n, rest) ← hex4? cs
  if n < 0xd800 ∨ 0xe000 ≤ n then return (some (Char.ofNat n), rest)
  else if 0xdc00 ≤ n then return (none, rest)
  else
    match rest with
    | '\\' :: 'u' :: rest' =>
      let (low, after) ← hex4? rest'
      if 0xdc00 ≤ low ∧ low < 0xe000 then
        return (some (Char.ofNat (0x10000 + 0x400 * (n - 0xd800) + (low - 0xdc00))), after)
      else return (none, rest)
    | _ => return (none, rest)

/-- The character that an escape stands for. -/
def escape? (cs : List Char) : Option (Unit16 × List Char) :=
  match cs with
  | '"' :: rest => some (some '"', rest)
  | '\\' :: rest => some (some '\\', rest)
  | '/' :: rest => some (some '/', rest)
  | 'b' :: rest => some (some '\x08', rest)
  | 'f' :: rest => some (some '\x0c', rest)
  | 'n' :: rest => some (some '\n', rest)
  | 'r' :: rest => some (some '\r', rest)
  | 't' :: rest => some (some '\t', rest)
  | 'u' :: rest => unit? rest
  | _ => none

/-- Reads the rest of a string; `fuel` bounds its characters. -/
def readUnits? : (fuel : Nat) → List Char → Option (List Unit16 × List Char)
  | 0, _ => none
  | _, [] => none
  | fuel + 1, c :: rest =>
    if c = '"' then some ([], rest)
    else if c.toNat < 32 then none
    else do
      let (c, rest) ← if c = '\\' then escape? rest else some (some c, rest)
      let (cs, rest) ← readUnits? fuel rest
      return (c :: cs, rest)

/-- Reads the rest of a string, and gives its text if it has one. -/
def readString? (cs : List Char) : Option (Option String × List Char) :=
  (readUnits? (cs.length + 1) cs).map fun (units, rest) =>
    ((units.mapM id).map String.ofList, rest)

/-! ## 3. Values -/

/-- Passes over blanks. -/
def skipBlanks (cs : List Char) : List Char :=
  cs.dropWhile fun c => c = ' ' || c = '\t' || c = '\n' || c = '\r'

/-- A value spelled as a word, where the text goes on with the word. -/
def word (v : Value) (w : String) (cs : List Char) : Value × List Char :=
  if w.toList.isPrefixOf cs then (v, cs.drop w.length) else (.malformed, cs)

mutual

/-- Reads a value; `fuel` bounds how many values are begun. -/
def readValue : (fuel : Nat) → List Char → Value × List Char
  | 0, cs => (.malformed, cs)
  | fuel + 1, cs =>
    match skipBlanks cs with
    | [] => (.malformed, [])
    | c :: rest =>
      if c = 'n' then word .null "ull" rest
      else if c = 't' then word (.bool true) "rue" rest
      else if c = 'f' then word (.bool false) "alse" rest
      else if c = '"' then
        match readString? rest with
        | some (text, rest) => ((text.map Value.string).getD .unusable, rest)
        | none => (.malformed, rest)
      else if c = '[' then
        match skipBlanks rest with
        | ']' :: rest => (.array [] true, rest)
        | rest => let (items, closed, rest) := readItems fuel rest; (.array items closed, rest)
      else if c = '\x7b' then
        match skipBlanks rest with
        | '\x7d' :: rest => (.object [] true, rest)
        | rest => let (members, closed, rest) := readMembers fuel rest; (.object members closed, rest)
      else
        match if c = '-' then readNumber? true rest else readNumber? false (c :: rest) with
        | some (v, rest) => (v, rest)
        | none => (.malformed, rest)

/-- Reads the items of an array, and tells whether it is closed after them. -/
def readItems : (fuel : Nat) → List Char → List Value × Bool × List Char
  | 0, cs => ([], false, cs)
  | fuel + 1, cs =>
    let (v, rest) := readValue fuel cs
    if v.isIntact then
      match skipBlanks rest with
      | ']' :: rest => ([v], true, rest)
      | ',' :: rest => let (vs, closed, rest) := readItems fuel rest; (v :: vs, closed, rest)
      | rest => ([v], false, rest)
    else ([v], false, rest)

/-- Reads the members of an object, and tells whether it is closed after them. -/
def readMembers : (fuel : Nat) → List Char → List (String × Value) × Bool × List Char
  | 0, cs => ([], false, cs)
  | fuel + 1, cs =>
    match skipBlanks cs with
    | '"' :: rest =>
      match readString? rest with
      | none | some (none, _) => ([], false, rest)
      | some (some name, rest) =>
        match skipBlanks rest with
        | ':' :: rest =>
          let (v, rest) := readValue fuel rest
          if v.isIntact then
            match skipBlanks rest with
            | '\x7d' :: rest => ([(name, v)], true, rest)
            | ',' :: rest =>
              let (ms, closed, rest) := readMembers fuel rest
              ((name, v) :: ms, closed, rest)
            | rest => ([(name, v)], false, rest)
          else ([(name, v)], false, rest)
        | rest => ([(name, .malformed)], false, rest)
    | rest => ([], false, rest)

end

/-- The value of a text, and whether nothing but blanks follows it. -/
def read (s : String) : Value × Bool :=
  let (v, rest) := readValue (2 * s.length + 2) s.toList
  (v, skipBlanks rest = [])

end PeerTrust.Json
