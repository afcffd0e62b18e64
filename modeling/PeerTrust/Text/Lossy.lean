import PeerTrust.Bytes

/-!
# Octets shown as text

Octets that are meant to be UTF-8 but may not be are shown with a replacement character for each
longest part that begins a character without completing it.

* `Text.lossy` is that text; on the octets of a text it gives the text back.
-/

namespace PeerTrust.Text

/-- The ranges of the octets that may follow a first octet in UTF-8, none for one that no character
begins with. -/
def continuations (x : UInt8) : Option (List (UInt8 × UInt8)) :=
  let any := (0x80, 0xbf)
  if x < 0x80 then some []
  else if x < 0xc2 then none
  else if x < 0xe0 then some [any]
  else if x = 0xe0 then some [(0xa0, 0xbf), any]
  else if x = 0xed then some [(0x80, 0x9f), any]
  else if x < 0xf0 then some [any, any]
  else if x = 0xf0 then some [(0x90, 0xbf), any, any]
  else if x < 0xf4 then some [any, any, any]
  else if x = 0xf4 then some [(0x80, 0x8f), any, any]
  else none

/-- How many octets follow as they should. -/
def followed : List (UInt8 × UInt8) → Bytes → Nat
  | (low, high) :: ranges, x :: rest => if low ≤ x ∧ x ≤ high then 1 + followed ranges rest else 0
  | _, _ => 0

/-- The characters of octets; `fuel` bounds their number. -/
def lossyChars : (fuel : Nat) → Bytes → List Char
  | 0, _ => []
  | _, [] => []
  | fuel + 1, x :: rest =>
    match continuations x with
    | none => '\ufffd' :: lossyChars fuel rest
    | some ranges =>
      let n := followed ranges rest
      let shown :=
        if n = ranges.length then ((Bytes.toText? (x :: rest.take n)).getD "\ufffd").toList
        else ['\ufffd']
      shown ++ lossyChars fuel (rest.drop n)

/-- The text that octets are shown as. -/
def lossy (b : Bytes) : String := String.ofList (lossyChars b.length b)

end PeerTrust.Text
