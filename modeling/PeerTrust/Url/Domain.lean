import PeerTrust.Url.Punycode

/-!
# Domain names

The ASCII form of a domain name: labels are in lower case, and a label of other characters is
written as `xn--` with its punycode.

* `Domain.fold` maps a character to the characters it stands for in a name;
* `Domain.label?` writes one label, and checks one that is written already;
* `Domain.toAscii?` writes a whole name, and refuses characters that no host may hold.

Case is known for the Latin, Greek and Cyrillic letters and for wide forms; other characters stand
for themselves.
-/

namespace PeerTrust.Domain

/-- The character that a character stands for where case and width do not matter, or none where it
stands for nothing. -/
def fold (c : Char) : List Char :=
  let n := c.toNat
  if n < 128 then [c.toLower]
  else if n = 0xad ∨ n = 0x200b ∨ n = 0x2060 ∨ n = 0xfeff then []
  else if n = 0x3002 ∨ n = 0xff0e ∨ n = 0xff61 then ['.']
  else if 0xff01 ≤ n ∧ n ≤ 0xff5e then [(Char.ofNat (n - 0xfee0)).toLower]
  else if 0xc0 ≤ n ∧ n ≤ 0xde ∧ n ≠ 0xd7 then [Char.ofNat (n + 32)]
  else if (0x100 ≤ n ∧ n ≤ 0x12f ∨ 0x14a ≤ n ∧ n ≤ 0x177) ∧ n % 2 = 0 then [Char.ofNat (n + 1)]
  else if (0x139 ≤ n ∧ n ≤ 0x147 ∨ 0x179 ≤ n ∧ n ≤ 0x17d) ∧ n % 2 = 1 then [Char.ofNat (n + 1)]
  else if 0x391 ≤ n ∧ n ≤ 0x3a9 then [Char.ofNat (n + 32)]
  else if 0x410 ≤ n ∧ n ≤ 0x42f then [Char.ofNat (n + 32)]
  else if 0x400 ≤ n ∧ n ≤ 0x40f then [Char.ofNat (n + 80)]
  else [c]

/-- Whether a character is of no use in a name: controls of the second kind, private and unassigned
ranges, and the replacement character. -/
def isDisallowed (c : Char) : Bool :=
  let n := c.toNat
  (0x80 ≤ n && n < 0xa0) || (0xe000 ≤ n && n < 0xf900) || (0xfff0 ≤ n && n ≤ 0xffff) ||
  0xe0000 ≤ n || (0x2028 ≤ n && n ≤ 0x202e)

/-- Whether a character of ASCII may not stand in a name. -/
def isForbidden (c : Char) : Bool :=
  c.toNat ≤ 32 || c.toNat = 127 || "#%/:<>?@[\\]^|".contains c

/-- The ASCII form of a label whose characters are folded. -/
def label? (cs : List Char) : Option (List Char) :=
  if "xn--".toList.isPrefixOf cs then
    match Punycode.decode? (cs.drop 4) with
    | none => none
    | some decoded =>
      if decoded.all (·.toNat < 128) ∨ decoded.any isDisallowed ∨ decoded.flatMap fold ≠ decoded then
        none
      else some cs
  else if cs.all (·.toNat < 128) then some cs
  else if cs.any isDisallowed then none
  else some ("xn--".toList ++ Punycode.encode cs)

/-- The labels of a name. -/
def labels : List Char → List (List Char)
  | [] => [[]]
  | '.' :: rest => [] :: labels rest
  | c :: rest =>
    match labels rest with
    | [] => [[c]]
    | l :: ls => (c :: l) :: ls

/-- The ASCII form of a name. -/
def toAscii? (b : Bytes) : Option String := do
  let name ← b.toText?
  let parts ← (labels (name.toList.flatMap fold)).mapM label?
  let ascii := ['.'].intercalate parts
  if ascii.any isForbidden then none else some (String.ofList ascii)

end PeerTrust.Domain
