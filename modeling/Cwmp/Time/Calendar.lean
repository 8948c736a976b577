/-! # The civil calendar

Dates of the proleptic Gregorian calendar, with a year 0 and negative years before it, and their
numbering by days. Day 0 is the first of January 1970.
-/
namespace Cwmp.Calendar

/-- A day of the civil calendar, not necessarily one that exists. -/
structure Date where
  year : Int
  month : Nat
  day : Nat
deriving DecidableEq, Repr

def isLeap (year : Int) : Bool :=
  year % 4 = 0 ∧ (year % 100 ≠ 0 ∨ year % 400 = 0)

def monthLengths (leap : Bool) : List Nat :=
  [31, if leap then 29 else 28, 31, 30, 31, 30, 31, 31, 30, 31, 30, 31]

/-- The number of days in a month, `0` for a number that names none. -/
def daysInMonth (year : Int) (month : Nat) : Nat :=
  if month = 0 then 0 else (monthLengths (isLeap year)).getD (month - 1) 0

/-- A date that occurs in the calendar. -/
def Date.Exists (d : Date) : Prop :=
  1 ≤ d.month ∧ d.month ≤ 12 ∧ 1 ≤ d.day ∧ d.day ≤ daysInMonth d.year d.month

instance (d : Date) : Decidable d.Exists :=
  inferInstanceAs (Decidable (_ ∧ _ ∧ _ ∧ _))

/-- Days from the first day of year 1 to the first day of `year`. -/
def daysBeforeYear (year : Int) : Int :=
  let y := year - 1
  365 * y + y / 4 - y / 100 + y / 400

/-- Days from the first of January to the first day of `month`. -/
def daysBeforeMonth (year : Int) (month : Nat) : Nat :=
  ((monthLengths (isLeap year)).take (month - 1)).foldr (· + ·) 0

/-- Days from the first day of year 1 to the first day of 1970. -/
def epochDay : Int := 719162

def Date.toDays (d : Date) : Int :=
  daysBeforeYear d.year + daysBeforeMonth d.year d.month + d.day - 1 - epochDay

/-- The month and day of the month after `n` days of a year whose months have these lengths. -/
def monthAndDay : (month : Nat) → List Nat → (n : Nat) → Nat × Nat
  | month, [], n => (month, n + 1)
  | month, length :: rest, n =>
    if n < length then (month, n + 1) else monthAndDay (month + 1) rest (n - length)

/-- The year that holds the `n`th day counted from the first day of year 1, and how many days of it
come before. A cycle of 400 years has 146097 days, a century of it 36524 or one more, four years
1461 or one less. -/
def yearAndDay (n : Int) : Int × Nat :=
  let cycles := n / 146097
  let inCycle := n % 146097
  let centuries := min 3 (inCycle / 36524)
  let inCentury := inCycle - centuries * 36524
  let fours := inCentury / 1461
  let inFour := inCentury % 1461
  let years := min 3 (inFour / 365)
  (400 * cycles + 100 * centuries + 4 * fours + years + 1, (inFour - years * 365).toNat)

def Date.ofDays (n : Int) : Date :=
  let (year, rest) := yearAndDay (n + epochDay)
  let (month, day) := monthAndDay 1 (monthLengths (isLeap year)) rest
  ⟨year, month, day⟩

example : (Date.mk 1970 1 1).toDays = 0 := by decide
example : Date.ofDays 0 = ⟨1970, 1, 1⟩ := by decide
example : Date.ofDays 19782 = ⟨2024, 2, 29⟩ := by decide
example : Date.ofDays (-719529) = ⟨-1, 12, 31⟩ := by decide

end Cwmp.Calendar
