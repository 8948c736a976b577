import Cwmp.Text.Blank
import Cwmp.Text.Decimal
import Cwmp.Time.Instant

/-! # Date-times as text

The text of an instant is the internet profile of ISO 8601: date, `T`, time of day and offset. It
is always written in universal time. Two readers exist. `read` takes the profile as it stands and
says what is wrong with a text. `readLoose` also allows blanks, numbers without leading zeros and
years of more than four digits with a sign, which is how instants in documents may look.
-/
namespace Cwmp.Rfc3339

open Text Calendar

inductive Fault
  | tooShort
  | invalid
  | outOfRange
  | trailing
deriving DecidableEq, Repr

def Fault.message : Fault → String
  | .tooShort => "premature end of input"
  | .invalid => "input contains invalid characters"
  | .outOfRange => "input is out of range"
  | .trailing => "trailing input"

/-- A year: four digits from year 0 to 9999, otherwise a sign and at least four digits. -/
def yearText (year : Int) : String :=
  if 0 ≤ year ∧ year ≤ 9999 then padded 4 year.toNat
  else (if year < 0 then "-" else "+") ++ padded 4 year.natAbs

/-- The digits of a fraction of a second after its point: none, or as many of 3, 6 and 9 as it
needs. -/
def fractionText (nanos : Nat) : String :=
  if nanos = 0 then ""
  else if nanos % 1000000 = 0 then "." ++ padded 3 (nanos / 1000000)
  else if nanos % 1000 = 0 then "." ++ padded 6 (nanos / 1000)
  else "." ++ padded 9 nanos

/-- Date and time to the second, which is `60` in a leap second. -/
def clockText (t : Instant) : String :=
  let d := t.date
  let s := t.secondOfDay
  yearText d.year ++ "-" ++ padded 2 d.month ++ "-" ++ padded 2 d.day ++ "T" ++
    padded 2 (s / 3600) ++ ":" ++ padded 2 (s / 60 % 60) ++ ":" ++
    padded 2 (s % 60 + t.nanos / 1000000000)

/-- The text of an instant to the second. -/
def write (t : Instant) : String :=
  clockText t ++ "Z"

/-- The text of an instant with its fraction. -/
def writeExact (t : Instant) : String :=
  clockText t ++ fractionText (t.nanos % 1000000000) ++ "Z"

/-- What a text says before it is placed on the time line. -/
structure Civil where
  date : Date
  hour : Nat
  minute : Nat
  second : Nat
  nanos : Nat
  /-- Seconds by which the place's clock is ahead of universal time. -/
  offset : Int

/-- A time of day, the leap second included. -/
def Civil.OnClock (c : Civil) : Prop :=
  c.hour < 24 ∧ c.minute < 60 ∧ c.second ≤ 60

instance (c : Civil) : Decidable c.OnClock :=
  inferInstanceAs (Decidable (_ ∧ _ ∧ _))

/-- The instant of a civil time. Offsets of a day or more are refused. -/
def Civil.toInstant? (c : Civil) : Option Instant :=
  if -86400 < c.offset ∧ c.offset < 86400 then
    let leap := c.second = 60
    let second := if leap then 59 else c.second
    Instant.ofParts?
      (c.date.toDays * 86400 + (c.hour * 3600 + c.minute * 60 + second : Nat) - c.offset)
      (if leap then c.nanos + 1000000000 else c.nanos)
  else none

/-- The nanoseconds that the digits after a decimal point denote; those beyond the ninth are
dropped. -/
def nanosOf (digits : List Char) : Nat :=
  let kept := digits.take 9
  (digits? kept).getD 0 * Nat.pow 10 (9 - kept.length)

/-- The fraction after a decimal point, `0` if no point stands here. -/
def fraction : List Char → Except Fault (Nat × List Char)
  | ['.'] => .error .tooShort
  | '.' :: rest =>
    let digits := rest.takeWhile isDigit
    if digits = [] then .error .invalid else .ok (nanosOf digits, rest.dropWhile isDigit)
  | s => .ok (0, s)

/-- The next two characters; too short if fewer than two bytes are left. -/
def pair : List Char → Except Fault (Char × Char × List Char)
  | a :: b :: rest => .ok (a, b, rest)
  | [a] => .error (if 2 ≤ a.utf8Size then .invalid else .tooShort)
  | [] => .error .tooShort

/-- Hours and minutes of an offset, read as seconds; `colon` steps over what stands between. -/
def offsetSeconds (colon : List Char → Except Fault (List Char)) (s : List Char) :
    Except Fault (Nat × List Char) := do
  let (a, b, rest) ← pair s
  let hours ← ((digits? [a, b]).elim (.error .invalid) .ok : Except Fault Nat)
  let rest ← colon rest
  let (a, b, rest) ← pair rest
  let minutes ← ((digits? [a, b]).elim (.error .invalid) .ok : Except Fault Nat)
  if minutes < 60 then .ok (hours * 3600 + minutes * 60, rest) else .error .outOfRange

/-- The offset from universal time: `Z`, or a sign with hours and minutes. The minus sign may be
the typographic one. -/
def zone (colon : List Char → Except Fault (List Char)) :
    List Char → Except Fault (Int × List Char)
  | [] => .error .tooShort
  | c :: rest =>
    if c = 'Z' ∨ c = 'z' then .ok (0, rest)
    else if c = '+' then do
      let (n, rest) ← offsetSeconds colon rest
      pure ((n : Int), rest)
    else if c = '-' ∨ c = '\u2212' then do
      let (n, rest) ← offsetSeconds colon rest
      pure (-(n : Int), rest)
    else .error .invalid

def exactly (n : Nat) (s : List Char) : Except Fault (Nat × List Char) :=
  let head := s.take n
  if head.length = n then
    match digits? head with
    | some value => .ok (value, s.drop n)
    | none => .error .invalid
  else .error .invalid

def expect (p : Char → Bool) : List Char → Except Fault (List Char)
  | c :: rest => if p c then .ok rest else .error .invalid
  | [] => .error .invalid

def offsetColon : List Char → Except Fault (List Char)
  | [] => .error .tooShort
  | ':' :: rest => .ok rest
  | _ => .error .invalid

def read (text : String) : Except Fault Instant := do
  let s := text.toList
  if byteLength s < 19 then .error .tooShort
  let (year, s) ← exactly 4 s
  let s ← expect (· = '-') s
  let (month, s) ← exactly 2 s
  let s ← expect (· = '-') s
  let (day, s) ← exactly 2 s
  let date : Date := ⟨year, month, day⟩
  if ¬ date.Exists then .error .outOfRange
  let s ← expect (fun c => c = 'T' || c = 't' || c = ' ') s
  let (hour, s) ← exactly 2 s
  let s ← expect (· = ':') s
  let (minute, s) ← exactly 2 s
  let s ← expect (· = ':') s
  let (second, s) ← exactly 2 s
  let (nanos, s) ← fraction s
  if ¬ (Civil.mk date hour minute second nanos 0).OnClock then .error .outOfRange
  let (offset, s) ← zone offsetColon s
  if s ≠ [] then .error .trailing
  match (Civil.mk date hour minute second nanos offset).toInstant? with
  | some t => .ok t
  | none => .error .outOfRange

/-- One to `width` digits after blanks. -/
def upTo (width : Nat) (s : List Char) : Option (Nat × List Char) :=
  let s := dropBlanks s
  let head := (s.take width).takeWhile isDigit
  (digits? head).map fun value => (value, s.drop head.length)

/-- A year: up to four digits, or a sign and any number of them. -/
def looseYear (s : List Char) : Option (Int × List Char) :=
  match dropBlanks s with
  | '-' :: rest => (digits? (rest.takeWhile isDigit)).map fun n =>
      (-(n : Int), rest.dropWhile isDigit)
  | '+' :: rest => (digits? (rest.takeWhile isDigit)).map fun n =>
      ((n : Int), rest.dropWhile isDigit)
  | s => (upTo 4 s).map fun (n, rest) => ((n : Int), rest)

/-- A mark between two numbers, with blanks before it. -/
def mark (c : Char) (s : List Char) : Option (List Char) :=
  match dropBlanks s with
  | d :: rest => if d = c then some rest else none
  | [] => none

/-- Colons and blanks inside an offset, any number of them. -/
def looseColon (s : List Char) : Except Fault (List Char) :=
  .ok (s.dropWhile fun c => c = ':' || isBlank c)

/-- The offset, for which the letters `UTC` may stand. -/
def looseZone (s : List Char) : Except Fault (Int × List Char) :=
  if (s.take 3).map Char.toUpper = ['U', 'T', 'C'] then .ok (0, s.drop 3) else zone looseColon s

/-- Reads a date-time in any of the looser forms. -/
def readLoose (text : String) : Option Instant := do
  let (year, s) ← looseYear text.toList
  let s ← mark '-' s
  let (month, s) ← upTo 2 s
  let s ← mark '-' s
  let (day, s) ← upTo 2 s
  let s ← (expect (fun c => c = 'T' || c = 't' || c = ' ') s).toOption
  let (hour, s) ← upTo 2 s
  let s ← mark ':' s
  let (minute, s) ← upTo 2 s
  let s ← mark ':' s
  let (second, s) ← upTo 2 s
  let (nanos, s) ← (fraction s).toOption
  let (offset, s) ← (looseZone (dropBlanks s)).toOption
  guard (dropBlanks s = [])
  let civil : Civil := ⟨⟨year, month, day⟩, hour, minute, second, nanos, offset⟩
  guard (civil.date.Exists ∧ civil.OnClock)
  civil.toInstant?

end Cwmp.Rfc3339
