import PeerTrust.Bytes

/-!
# Calendar times

Dates of the Gregorian calendar, extended to the years before it, and the seconds since the start
of 1970 that they denote.

* `Calendar.daysOf` counts days from 1970-01-01 to a date;
* `Calendar.seconds?` checks a date and a time of day and gives its seconds;
* `Calendar.utcTime?` and `Calendar.generalizedTime?` read the two written forms of certificates;
* `Calendar.instant?` and `Calendar.shortInstant?` read them strictly: whole seconds, in universal
  time, not before 1970.
-/

namespace PeerTrust.Calendar

/-! ## 1. Dates -/

/-- Whether a year has a 29th of February. -/
def isLeap (year : Nat) : Bool := year % 4 == 0 && (year % 100 != 0 || year % 400 == 0)

/-- The number of days of a month, none for a month that does not exist. -/
def monthLength (year month : Nat) : Nat :=
  match month with
  | 1 | 3 | 5 | 7 | 8 | 10 | 12 => 31
  | 4 | 6 | 9 | 11 => 30
  | 2 => if isLeap year then 29 else 28
  | _ => 0

/-- The days from the start of year zero to the start of a year. -/
def daysBeforeYear (year : Nat) : Nat :=
  if year = 0 then 0
  else 365 * year + 1 + (year - 1) / 4 - (year - 1) / 100 + (year - 1) / 400

/-- The days of a year before a month. -/
def daysBeforeMonth (year month : Nat) : Nat :=
  (List.range (month - 1)).foldl (fun n m => n + monthLength year (m + 1)) 0

/-- The days from 1970-01-01 to a date. -/
def daysOf (year month day : Nat) : Int :=
  ((daysBeforeYear year + daysBeforeMonth year month + day : Nat) : Int) - 1 - daysBeforeYear 1970

/-- The seconds since the start of 1970 of a date and a time of day, if they exist. -/
def seconds? (year month day hour minute second : Nat) : Option Int :=
  if 1 ≤ day ∧ day ≤ monthLength year month ∧ hour < 24 ∧ minute < 60 ∧ second < 60 then
    some (86400 * daysOf year month day + ((3600 * hour + 60 * minute + second : Nat) : Int))
  else none

/-! ## 2. Written forms -/

/-- The value of two decimal digits. -/
def twoDigits? (x y : UInt8) : Option Nat :=
  if 48 ≤ x ∧ x ≤ 57 ∧ 48 ≤ y ∧ y ≤ 57 then some (10 * (x.toNat - 48) + (y.toNat - 48)) else none

/-- The seconds by which a zone is ahead: `Z`, or a sign with hours up to twelve and minutes. The
sign belongs to the hours, so that it says nothing where they are zero. -/
def zone? : Bytes → Option Int
  | [90] => some 0
  | [sign, h1, h2, m1, m2] => do
    let h ← twoDigits? h1 h2
    let m ← twoDigits? m1 m2
    let ahead : Int := 3600 * h + 60 * m
    if 12 < h ∨ 59 < m then none
    else if sign = 43 ∨ (sign = 45 ∧ h = 0) then some ahead
    else if sign = 45 then some (-ahead)
    else none
  | _ => none

/-- A time with a year of two digits, of which the later fifty belong to the twentieth century. The
seconds may be absent. -/
def utcTime? : Bytes → Option Int
  | y1 :: y2 :: o1 :: o2 :: d1 :: d2 :: h1 :: h2 :: m1 :: m2 :: rest => do
    let y ← twoDigits? y1 y2
    let month ← twoDigits? o1 o2
    let day ← twoDigits? d1 d2
    let hour ← twoDigits? h1 h2
    let minute ← twoDigits? m1 m2
    let (second, rest) :=
      match rest with
      | s1 :: s2 :: rest => ((twoDigits? s1 s2).getD 0, rest)
      | rest => (0, rest)
    let ahead ← zone? rest
    let t ← seconds? (if 50 ≤ y then 1900 + y else 2000 + y) month day hour minute second
    return t - ahead
  | _ => none

/-- What may follow the seconds: nothing but the zone, or a point with up to three digits first. -/
def afterSeconds : Bytes → Bool
  | [90] => true
  | 46 :: rest =>
    let digits := rest.takeWhile fun x => 48 ≤ x && x ≤ 57
    digits.length ≤ 3 && rest.drop digits.length == [90]
  | _ => false

/-- A time with a year of four digits, in universal time. -/
def generalizedTime? : Bytes → Option Int
  | c1 :: c2 :: y1 :: y2 :: o1 :: o2 :: d1 :: d2 :: h1 :: h2 :: m1 :: m2 :: s1 :: s2 :: rest => do
    let century ← twoDigits? c1 c2
    let y ← twoDigits? y1 y2
    let month ← twoDigits? o1 o2
    let day ← twoDigits? d1 d2
    let hour ← twoDigits? h1 h2
    let minute ← twoDigits? m1 m2
    let second ← twoDigits? s1 s2
    if afterSeconds rest then seconds? (100 * century + y) month day hour minute second else none
  | _ => none

/-! ## 3. Strict forms -/

/-- The seconds since 1970 of fourteen digits and a `Z`. -/
def instant? (b : Bytes) : Option Nat :=
  if b.length = 15 then
    match generalizedTime? b with
    | some (.ofNat n) => some n
    | _ => none
  else none

/-- The seconds since 1970 of twelve digits and a `Z`; a year from 50 on belongs to the twentieth
century. -/
def shortInstant? (b : Bytes) : Option Nat :=
  instant? ((if b.head?.any (· < 53) then [50, 48] else [49, 57]) ++ b)

end PeerTrust.Calendar
