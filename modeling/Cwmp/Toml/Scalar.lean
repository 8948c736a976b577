import Cwmp.Text.Blank
import Cwmp.Text.CommaList
import Cwmp.Text.Decimal
import Cwmp.Text.Hex
import Cwmp.Time.Calendar
import Cwmp.Toml.Basic

/-! # Scalars of settings files

Texts in quotes of four kinds, numbers, words and dates.
-/
namespace Cwmp.Toml

open Text

/-- A character that may stand in a text on one line. -/
def isPrinting (c : Char) : Bool :=
  c == '\t' || (0x20 ≤ c.toNat && c.toNat != 0x7F)

def escape? (c : Char) : Option Char :=
  [('b', 8), ('t', 9), ('n', 10), ('f', 12), ('r', 13), ('"', 34), ('\\', 92)].lookup c
    |>.map Char.ofNat

/-- An escape by number: the letter, then four or eight digits. -/
def numbered? (s : List Char) : Option (Char × List Char) :=
  match s with
  | c :: rest =>
    let width := if c = 'u' then 4 else if c = 'U' then 8 else 0
    if width = 0 ∨ (rest.take width).length ≠ width then none
    else match hexFrom 0 (rest.take width) with
      | some n => if n.isValidChar then some (Char.ofNat n, rest.drop width) else none
      | none => none
  | [] => none

/-- A line break at the beginning of a text. -/
def afterBreak? : List Char → Option (List Char)
  | '\n' :: rest => some rest
  | '\r' :: '\n' :: rest => some rest
  | _ => none

/-- The rest of a text in double quotes on one line, after `done`. -/
def basicText (fuel : Nat) (done : List Char) (s : List Char) : Option (String × List Char) :=
  match fuel, s with
  | 0, _ | _, [] => none
  | _, '"' :: rest => some (String.ofList done.reverse, rest)
  | fuel + 1, '\\' :: c :: rest =>
    match escape? c with
    | some d => basicText fuel (d :: done) rest
    | none =>
      match numbered? (c :: rest) with
      | some (d, rest) => basicText fuel (d :: done) rest
      | none => none
  | fuel + 1, c :: rest => if isPrinting c then basicText fuel (c :: done) rest else none

/-- The rest of a text in single quotes on one line, after `done`. -/
def literalText (done : List Char) : List Char → Option (String × List Char)
  | [] => none
  | '\'' :: rest => some (String.ofList done.reverse, rest)
  | c :: rest => if isPrinting c then literalText (c :: done) rest else none

/-- The end of a text in triple quotes: three of them after at most two that belong to it. -/
def closeTriple? (quote : Char) (done s : List Char) : Option (String × List Char) :=
  let quotes := s.takeWhile (· == quote)
  if quotes.length < 3 then none
  else
    let kept := min (quotes.length - 3) 2
    some (String.ofList (done.reverse ++ List.replicate kept quote), s.drop (kept + 3))

/-- The rest of a text in triple double quotes, after `done`. A backslash at the end of a line takes
the break and the blanks after it away. -/
def basicBlock (fuel : Nat) (done : List Char) (s : List Char) : Option (String × List Char) :=
  match fuel, s with
  | 0, _ | _, [] => none
  | fuel + 1, '\\' :: c :: rest =>
    match escape? c with
    | some d => basicBlock fuel (d :: done) rest
    | none =>
      match numbered? (c :: rest) with
      | some (d, rest) => basicBlock fuel (d :: done) rest
      | none =>
        let isPad (c : Char) := c == ' ' || c == '\t'
        match afterBreak? ((c :: rest).dropWhile isPad) with
        | some rest =>
          basicBlock fuel done (rest.dropWhile fun c => isPad c || c == '\n' || c == '\r')
        | none => none
  | fuel + 1, c :: rest =>
    match closeTriple? '"' done (c :: rest) with
    | some result => some result
    | none =>
      match afterBreak? (c :: rest) with
      | some rest => basicBlock fuel ('\n' :: done) rest
      | none => if isPrinting c then basicBlock fuel (c :: done) rest else none

/-- The rest of a text in triple single quotes, after `done`. -/
def literalBlock (fuel : Nat) (done : List Char) (s : List Char) : Option (String × List Char) :=
  match fuel, s with
  | 0, _ | _, [] => none
  | fuel + 1, c :: rest =>
    match closeTriple? '\'' done (c :: rest) with
    | some result => some result
    | none =>
      match afterBreak? (c :: rest) with
      | some rest => literalBlock fuel ('\n' :: done) rest
      | none => if isPrinting c then literalBlock fuel (c :: done) rest else none

/-- Drops the break with which a text in triple quotes may begin. -/
def dropBreak (s : List Char) : List Char :=
  (afterBreak? s).getD s

def textValue (s : List Char) : Option (String × List Char) :=
  let fuel := s.length + 1
  match s with
  | '"' :: '"' :: '"' :: rest => basicBlock fuel [] (dropBreak rest)
  | '\'' :: '\'' :: '\'' :: rest => literalBlock fuel [] (dropBreak rest)
  | '"' :: rest => basicText fuel [] rest
  | '\'' :: rest => literalText [] rest
  | _ => none

/-- Digits with underscores between them, without the underscores. -/
def joined? (isIn : Char → Bool) (s : List Char) : Option (List Char) :=
  let runs := splitAt '_' s
  if runs.all fun run => run ≠ [] ∧ run.all isIn then some runs.flatten else none

/-- The number that digits of a base denote. -/
def inBase (base : Nat) (s : List Char) : Option Nat :=
  match joined? (fun c => (hexDigit? c).any (· < base)) s with
  | some digits => some (digits.foldl (fun n c => base * n + (hexDigit? c).getD 0) 0)
  | none => none

/-- A whole number without sign and without a leading zero. -/
def whole? (s : List Char) : Option (List Char) :=
  match joined? isDigit s with
  | some ('0' :: _ :: _) => none
  | digits => digits

/-- A whole number of 64 bits. -/
def integer? (s : List Char) : Option Int :=
  let n := match s with
    | '0' :: 'x' :: rest => (inBase 16 rest).map fun n => (n : Int)
    | '0' :: 'o' :: rest => (inBase 8 rest).map fun n => (n : Int)
    | '0' :: 'b' :: rest => (inBase 2 rest).map fun n => (n : Int)
    | '-' :: rest => ((whole? rest).bind digits?).map fun n => -(n : Int)
    | '+' :: rest => ((whole? rest).bind digits?).map fun n => (n : Int)
    | _ => ((whole? s).bind digits?).map fun n => (n : Int)
  n.filter fun i => int64Min ≤ i ∧ i ≤ int64Max

/-- A text without the sign at its beginning. -/
def dropSign (s : List Char) : List Char :=
  match s with
  | '+' :: rest | '-' :: rest => rest
  | _ => s

/-- A number with a fraction, an exponent or both, or one of the marks beyond the numbers. -/
def isReal (s : List Char) : Bool :=
  let body := dropSign s
  let mantissa := body.takeWhile fun c => c != 'e' && c != 'E'
  let exponent := body.drop mantissa.length
  let whole := mantissa.takeWhile (· != '.')
  let fraction := mantissa.drop whole.length
  body == ['i', 'n', 'f'] || body == ['n', 'a', 'n'] ||
    ((fraction != [] || exponent != []) && (whole? whole).isSome &&
      (fraction == [] || (joined? isDigit (fraction.drop 1)).isSome) &&
      (exponent == [] || (joined? isDigit (dropSign (exponent.drop 1))).isSome))

/-- Numbers of two digits between marks. -/
def pairs? (mark : Char) (s : List Char) : Option (List Nat) :=
  (splitAt mark s).mapM fun part => if part.length = 2 then digits? part else none

def isDate (s : List Char) : Bool :=
  match splitAt '-' s with
  | [year, month, day] =>
    year.length == 4 && month.length == 2 && day.length == 2 &&
      match digits? year, digits? month, digits? day with
      | some y, some m, some d => decide (Calendar.Date.Exists ⟨y, m, d⟩)
      | _, _, _ => false
  | _ => false

/-- A time of day, perhaps with a fraction of a second. -/
def isTime (s : List Char) : Bool :=
  let clock := s.takeWhile (· != '.')
  let fraction := s.drop clock.length
  (fraction == [] || (fraction.drop 1 != [] && (fraction.drop 1).all isDigit)) &&
    match pairs? ':' clock with
    | some [h, m, second] => h < 24 && m < 60 && second ≤ 60
    | _ => false

/-- A time of day with an offset. -/
def isZonedTime (s : List Char) : Bool :=
  let time := s.takeWhile fun c => c != 'Z' && c != 'z' && c != '+' && c != '-'
  isTime time && match s.drop time.length with
    | [] => true
    | ['Z'] | ['z'] => true
    | _ :: offset =>
      match pairs? ':' offset with
      | some [h, m] => h < 24 && m < 60
      | _ => false

/-- A date, a time of day, or a date and a time with a mark or a blank between them. -/
def isMoment (s : List Char) : Bool :=
  isDate s || isTime s ||
    (isDate (s.take 10) && ((s.drop 10).head?.any fun c => c == 'T' || c == 't' || c == ' ') &&
      isZonedTime (s.drop 11))

/-- A value that is not in quotes, brackets or braces. -/
def word? (s : List Char) : Option Setting :=
  if s = ['t', 'r', 'u', 'e'] then some (.boolean true)
  else if s = ['f', 'a', 'l', 's', 'e'] then some (.boolean false)
  else match integer? s with
    | some i => some (.integer i)
    | none => if isReal s then some .real else if isMoment s then some .moment else none

end Cwmp.Toml
