/-!
# White space

* `isBlank` is the Unicode property White_Space;
* `trim` takes white space off both ends of a text;
* `isBlank_of_isWhitespace`: whatever is white space in ASCII has the property.
-/

namespace PeerTrust.Text

/-- Whether a character has the Unicode property White_Space. -/
def isBlank (c : Char) : Bool :=
  let n := c.toNat
  (9 ≤ n && n ≤ 13) || n == 0x20 || n == 0x85 || n == 0xa0 || n == 0x1680 ||
  (0x2000 ≤ n && n ≤ 0x200a) || n == 0x2028 || n == 0x2029 || n == 0x202f || n == 0x205f ||
  n == 0x3000

theorem isBlank_of_isWhitespace (c : Char) (h : c.isWhitespace) : isBlank c := by
  simp only [Char.isWhitespace, Bool.or_eq_true, decide_eq_true_eq] at h
  rcases h with ((rfl | rfl) | rfl) | rfl <;> decide

/-- A text without the white space at its ends. -/
def trim (s : String) : String :=
  String.ofList ((((s.toList.dropWhile isBlank).reverse).dropWhile isBlank).reverse)

end PeerTrust.Text
