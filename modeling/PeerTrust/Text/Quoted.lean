/-!
# Quoted texts

A text inside a message stands between quotation marks; characters that would not be seen as
themselves are escaped.

* `quote` writes a text so.
-/

namespace PeerTrust.Text

/-- Whether a character is not seen as itself: controls, marks that join others, blanks other than
the space, and code points of no assigned character. -/
def isHidden (c : Char) : Bool :=
  let n := c.toNat
  n < 32 || (127 ≤ n && n ≤ 160) || n == 0xad || (0x300 ≤ n && n < 0x370) ||
  (0x2000 ≤ n && n ≤ 0x200f) || (0x2028 ≤ n && n ≤ 0x202f) || (0x205f ≤ n && n < 0x2070) ||
  n == 0x3000 || n == 0xfeff || (0xe000 ≤ n && n < 0xf900) || (0xfff0 ≤ n && n < 0xfffc) ||
  0xe0000 ≤ n

/-- The written form of a character between quotation marks. -/
def escape (c : Char) : List Char :=
  if c = '"' then ['\\', '"']
  else if c = '\\' then ['\\', '\\']
  else if c = '\t' then ['\\', 't']
  else if c = '\r' then ['\\', 'r']
  else if c = '\n' then ['\\', 'n']
  else if c.toNat = 0 then ['\\', '0']
  else if isHidden c then '\\' :: 'u' :: '\x7b' :: Nat.toDigits 16 c.toNat ++ ['\x7d']
  else [c]

/-- A text between quotation marks. -/
def quote (s : String) : String := "\"" ++ String.ofList (s.toList.flatMap escape) ++ "\""

end PeerTrust.Text
