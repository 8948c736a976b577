import Cwmp.Text.Decimal

/-! # Decimal fractions

The texts of numbers with a fraction or an exponent, and whether such a number is small enough for
a binary number of double precision. No value is computed but the one that decides this.
-/
namespace Cwmp.Text

/-- A number `digits * 10 ^ exponent`; `places` digits are written. -/
structure Real where
  digits : Nat
  places : Nat
  exponent : Int
deriving DecidableEq, Repr

/-- The exponent after the mantissa of a number, `0` where none is written. -/
def exponent? : List Char → Option Int
  | [] => some 0
  | c :: rest =>
    if c = 'e' ∨ c = 'E' then
      match rest with
      | '-' :: digits => (digits? digits).map fun n => -(n : Int)
      | '+' :: digits => (digits? digits).map fun n => (n : Int)
      | digits => (digits? digits).map fun n => (n : Int)
    else none

/-- Reads a number without sign: digits with a point among them or at either end, and perhaps an
exponent. -/
def unsignedReal? (s : List Char) : Option Real := do
  let whole := s.takeWhile isDigit
  let rest := s.dropWhile isDigit
  let fraction := match rest with
    | '.' :: more => more.takeWhile isDigit
    | _ => []
  let rest := match rest with
    | '.' :: more => more.dropWhile isDigit
    | _ => rest
  let digits ← digits? (whole ++ fraction)
  let exponent ← exponent? rest
  pure ⟨digits, (whole ++ fraction).length, exponent - fraction.length⟩

/-- Reads a number with an optional sign, which does not matter for its size. -/
def real? : List Char → Option Real
  | '-' :: rest => unsignedReal? rest
  | '+' :: rest => unsignedReal? rest
  | s => unsignedReal? s

/-- The least number that rounds beyond the doubles: half a unit above the largest of them. -/
def doubleLimit : Nat :=
  Nat.pow 2 1024 - Nat.pow 2 970

/-- Whether a number rounds to a finite double. Numbers far from the limit are told by the
position of their first digit. -/
def Real.isFinite (r : Real) : Bool :=
  let digits := (Nat.toDigits 10 r.digits).length
  let size : Int := digits + r.exponent
  if r.digits = 0 ∨ size < 300 then true
  else if 320 < size then false
  else if 0 ≤ r.exponent then r.digits * Nat.pow 10 r.exponent.toNat < doubleLimit
  else r.digits < doubleLimit * Nat.pow 10 (-r.exponent).toNat

end Cwmp.Text
