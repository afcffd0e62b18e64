import PeerTrust.Bytes

/-!
# DNS names

Names of servers as they are asked for, as certificates present them and as constraints restrict
them. Case does not matter.

* `DnsName.isReference`, `DnsName.isPresented` and `DnsName.isConstraint` say which octets are
  names of each kind;
* `DnsName.matchesReference` and `DnsName.matchesConstraint` compare a presented name with one of
  the other kinds. A presented name may begin with `*`, which stands for one whole label.
-/

namespace PeerTrust.Pkix.DnsName

/-! ## 1. Which names there are -/

/-- The dot between labels. -/
@[match_pattern] def dot : UInt8 := 46

/-- The octet that stands for any label. -/
@[match_pattern] def star : UInt8 := 42

/-- The hyphen. -/
def hyphen : UInt8 := 45

/-- A decimal digit. -/
def isDigit (x : UInt8) : Bool := 48 ≤ x && x ≤ 57

/-- A letter, a digit, a hyphen or an underscore. -/
def isLabelOctet (x : UInt8) : Bool :=
  isDigit x || (65 ≤ x && x ≤ 90) || (97 ≤ x && x ≤ 122) || x = hyphen || x = 95

/-- The labels between dots. -/
def labels : Bytes → List Bytes
  | [] => [[]]
  | x :: rest =>
    if x = dot then [] :: labels rest
    else
      match labels rest with
      | [] => [[x]]
      | label :: others => (x :: label) :: others

/-- Whether octets are a label. -/
def isLabel (b : Bytes) : Bool :=
  1 ≤ b.length && b.length ≤ 63 && b.all isLabelOctet && b.head? != some hyphen &&
  b.getLast? != some hyphen

/-- Whether octets are labels of which the last is no number. -/
def isPlain (b : Bytes) : Bool :=
  (labels b).all isLabel && !((labels b).getLast?.any fun label => label.all isDigit)

/-- The length that no name exceeds. -/
def maxLength : Nat := 253

/-- Octets without a dot at the end. -/
def withoutLastDot (b : Bytes) : Bytes := if b.getLast? = some dot then b.dropLast else b

/-- Whether octets are a name that may be asked for; a dot may end it. -/
def isReference (b : Bytes) : Bool := b.length ≤ maxLength && isPlain (withoutLastDot b)

/-- Whether octets are a name that a certificate may present: at least two labels follow a star. -/
def isPresented (b : Bytes) : Bool :=
  b.length ≤ maxLength &&
  match b with
  | star :: dot :: rest => isPlain rest && 2 ≤ (labels rest).length
  | b => isPlain b

/-- Whether octets restrict names: nothing, or a name, before which a dot may stand. -/
def isConstraint (b : Bytes) : Bool :=
  b.length ≤ maxLength &&
  match b with
  | [] => true
  | dot :: rest => isPlain rest
  | b => isPlain b

/-! ## 2. Comparing -/

/-- An octet in lower case. -/
def lower (x : UInt8) : UInt8 := if 65 ≤ x ∧ x ≤ 90 then x + 32 else x

/-- Whether octets agree but for case. -/
def same (a b : Bytes) : Bool := a.map lower == b.map lower

/-- Whether a presented name is a name; a star stands for what comes before the first dot after at
least one octet. -/
def covers (presented name : Bytes) : Bool :=
  match presented with
  | star :: rest => rest != [] && same rest ((name.drop 1).dropWhile (· ≠ dot))
  | _ => same presented name

/-- Whether a presented name is the name that is asked for. -/
def matchesReference (presented reference : Bytes) : Bool :=
  isPresented presented && isReference reference && covers presented (withoutLastDot reference)

/-- Whether a presented name is restricted by a constraint: it is that name or ends in it, at a
dot. -/
def matchesConstraint (presented constraint : Bytes) : Bool :=
  let extra := presented.length - constraint.length
  if extra = 0 then covers presented constraint
  else if constraint = [] then true
  else
    same (presented.drop extra) constraint &&
    (constraint.head? = some dot || presented[extra - 1]? = some dot)

end PeerTrust.Pkix.DnsName
