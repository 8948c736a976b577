import Cwmp.Doc.Basic
import Cwmp.Text.Decimal
import Cwmp.Text.Hex
import Cwmp.Text.Real

/-! # Plain scalars

What a scalar without quotes may stand for, depending on the type that its reader expects, and
which texts would be taken for something else than text if they were written without quotes.
-/
namespace Cwmp.Plain

open Text

def isNull (s : String) : Bool :=
  s ∈ ["", "null", "Null", "NULL", "~"]

def boolean? (s : String) : Option Bool :=
  if s ∈ ["true", "True", "TRUE"] then some true
  else if s ∈ ["false", "False", "FALSE"] then some false
  else none

/-- Digits of a base up to sixteen after `acc`. -/
def digitsIn (base acc : Nat) : List Char → Option Nat
  | [] => some acc
  | c :: rest =>
    ((hexDigit? c).filter (· < base)).bind fun d => digitsIn base (base * acc + d) rest

/-- A number in the base that its first two characters name. -/
def based? : List Char → Option Nat
  | '0' :: mark :: c :: rest =>
    if mark = 'x' then digitsIn 16 0 (c :: rest)
    else if mark = 'o' then digitsIn 8 0 (c :: rest)
    else if mark = 'b' then digitsIn 2 0 (c :: rest)
    else none
  | _ => none

/-- Two or more digits of which the first is a zero, which count as text. -/
def isZeroLed (s : List Char) : Bool :=
  match s with
  | '0' :: c :: rest => (c :: rest).all isDigit
  | _ => false

def magnitude? (s : List Char) : Option Nat :=
  if isZeroLed s then none else based? s <|> digits? s

def integer? (s : String) : Option Int :=
  match s.toList with
  | '-' :: rest => (magnitude? rest).map fun n => -(n : Int)
  | '+' :: rest => (magnitude? rest).map fun n => (n : Int)
  | rest => (magnitude? rest).map fun n => (n : Int)

/-- A whole number that carries no minus sign, not even that of `-0`. -/
def natural? (s : String) : Option Nat :=
  if s.toList.head? = some '-' then none else (integer? s).map Int.toNat

/-- The text of a number with a fraction or an exponent, or of one of the marks beyond the
numbers. -/
def isReal (s : String) : Bool :=
  let chars := s.toList
  let body := match chars with
    | '+' :: rest => rest
    | _ => chars
  let unsigned := String.ofList body
  unsigned ∈ [".inf", ".Inf", ".INF"] || s ∈ ["-.inf", "-.Inf", "-.INF", ".nan", ".NaN", ".NAN"] ||
    (!(chars.head? == some '+' && (body.head? == some '+' || body.head? == some '-')) &&
      (real? body).any Real.isFinite)

/-- Bounds within which a whole number is taken for one, whatever its type: those of the numbers of
128 bits, with or without sign. -/
def isWide (i : Int) : Bool :=
  -170141183460469231731687303715884105728 ≤ i && i ≤ 340282366920938463463374607431768211455

/-- A text that, written without quotes, would not be read as the text it is. -/
def isAmbiguous (s : String) : Bool :=
  let body := match s.toList with
    | '+' :: rest | '-' :: rest => rest
    | chars => chars
  isNull s || (boolean? s).isSome || (integer? s).any isWide || isReal s || isZeroLed body

end Cwmp.Plain
