/-! # Decimal numbers

Reading and writing whole numbers in decimal. A number may carry a plus sign, one of a signed
type also a minus sign; no blanks or separators stand in it.
-/
namespace Cwmp.Text

def digit? (c : Char) : Option Nat :=
  if '0' ≤ c ∧ c ≤ '9' then some (c.toNat - '0'.toNat) else none

def isDigit (c : Char) : Bool :=
  (digit? c).isSome

/-- The digits of a text read one after the other, most significant first, after `acc`. -/
def digitsFrom (acc : Nat) : List Char → Option Nat
  | [] => some acc
  | c :: rest => (digit? c).bind fun d => digitsFrom (10 * acc + d) rest

/-- The number that a text of one or more digits denotes. -/
def digits? : List Char → Option Nat
  | [] => none
  | s => digitsFrom 0 s

/-- A number from `0` to `top`, with an optional plus sign. -/
def unsigned? (top : Nat) (s : List Char) : Option Nat :=
  let body := match s with
    | '+' :: rest => rest
    | _ => s
  (digits? body).filter (· ≤ top)

/-- A number from `bottom` to `top`, with an optional sign. -/
def signed? (bottom top : Int) (s : List Char) : Option Int :=
  let magnitude := match s with
    | '-' :: rest => (digits? rest).map fun n => -(n : Int)
    | '+' :: rest => (digits? rest).map fun n => (n : Int)
    | _ => (digits? s).map fun n => (n : Int)
  magnitude.filter fun i => bottom ≤ i ∧ i ≤ top

def decimal (n : Nat) : String :=
  String.ofList (Nat.toDigits 10 n)

def decimalInt : Int → String
  | .ofNat n => decimal n
  | .negSucc n => "-" ++ decimal (n + 1)

/-- The decimal digits of `n`, filled up with zeros on the left to `width`. -/
def padded (width n : Nat) : String :=
  let digits := Nat.toDigits 10 n
  String.ofList (List.replicate (width - digits.length) '0' ++ digits)

/-- Bounds of the 64-bit numbers in which values travel. -/
def int64Min : Int := -9223372036854775808
def int64Max : Int := 9223372036854775807
def uint64Max : Nat := 18446744073709551615

/-- Largest 32-bit number. -/
def uint32Max : Nat := 4294967295

theorem unsigned?_le {top n : Nat} {s : List Char} (h : unsigned? top s = some n) : n ≤ top := by
  simp only [unsigned?, Option.filter_eq_some_iff] at h
  simpa using h.2

end Cwmp.Text
