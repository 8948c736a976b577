import Cwmp.Doc.Basic
import Cwmp.Text.Decimal
import Cwmp.Text.Hex

/-! # JSON tokens

A JSON text is a sequence of tokens with blanks between them. The sequence ends with `junk` where
the text stops being one. A text token carries nothing when it holds half of a surrogate pair: such
a text can be stepped over but is the text of no value.
-/
namespace Cwmp.Json

open Text

inductive Token
  | openList
  | closeList
  | openTable
  | closeTable
  | colon
  | comma
  | text (s : Option String)
  /-- A scalar other than a text. -/
  | scalar (d : Doc)
  | junk

/-- A part of a text: a character, or a 16-bit unit given by its number. -/
inductive Piece
  | char (c : Char)
  | unit (n : Nat)

/-- The character for a letter after a backslash. -/
def escaped? (c : Char) : Option Char :=
  if c = '"' ∨ c = '\\' ∨ c = '/' then some c
  else if c = 'b' then some (Char.ofNat 8)
  else if c = 'f' then some (Char.ofNat 12)
  else if c = 'n' then some '\n'
  else if c = 'r' then some '\r'
  else if c = 't' then some '\t'
  else none

/-- The pieces of a text up to its closing quote, and what follows it. -/
def pieces? : List Char → Option (List Piece × List Char)
  | [] => none
  | '"' :: rest => some ([], rest)
  | '\\' :: 'u' :: a :: b :: c :: d :: rest =>
    match hexFrom 0 [a, b, c, d], pieces? rest with
    | some n, some (pieces, rest) => some (.unit n :: pieces, rest)
    | _, _ => none
  | '\\' :: c :: rest =>
    match escaped? c, pieces? rest with
    | some c, some (pieces, rest) => some (.char c :: pieces, rest)
    | _, _ => none
  | c :: rest =>
    if c.toNat < 0x20 ∨ c = '\\' then none
    else match pieces? rest with
      | some (pieces, rest) => some (.char c :: pieces, rest)
      | none => none

/-- The characters of a text; two units of a surrogate pair are one character. -/
def joinPieces : List Piece → Option (List Char)
  | [] => some []
  | .char c :: rest => (joinPieces rest).map (c :: ·)
  | .unit n :: rest =>
    if n < 0xD800 ∨ 0xE000 ≤ n then (joinPieces rest).map (Char.ofNat n :: ·)
    else match rest with
      | .unit m :: rest =>
        if n < 0xDC00 ∧ 0xDC00 ≤ m ∧ m < 0xE000 then
          (joinPieces rest).map (Char.ofNat (0x10000 + (n - 0xD800) * 0x400 + (m - 0xDC00)) :: ·)
        else none
      | _ => none

/-- Digits after a point or an exponent mark: one or more of them, and what follows. -/
def someDigits? (s : List Char) : Option (List Char) :=
  if s.takeWhile isDigit = [] then none else some (s.dropWhile isDigit)

/-- What may follow the whole part of a number: a fraction and an exponent. -/
def isTail (s : List Char) : Bool :=
  let afterFraction := match s with
    | '.' :: rest => someDigits? rest
    | _ => some s
  match afterFraction with
  | none => false
  | some [] => true
  | some (c :: rest) =>
    (c == 'e' || c == 'E') &&
      let digits := match rest with
        | '+' :: digits | '-' :: digits => digits
        | _ => rest
      someDigits? digits == some []

/-- A number. Those with a fraction or an exponent, those beyond 64 bits and the negative zero are
no whole numbers. -/
def number? (s : List Char) : Option Doc :=
  let negative := s.head? = some '-'
  let body := if negative then s.drop 1 else s
  let whole := body.takeWhile isDigit
  let tail := body.dropWhile isDigit
  match digits? whole with
  | none => none
  | some n =>
    if (whole.head? = some '0' ∧ whole ≠ ['0']) ∨ isTail tail = false then none
    else if tail ≠ [] then some .foreign
    else if negative then
      if n = 0 ∨ (n : Int) > -int64Min then some .foreign else some (.integer (-(n : Int)))
    else if n ≤ uint64Max then some (.integer n) else some .foreign

/-- A character of which numbers are made. -/
def isNumeral (c : Char) : Bool :=
  isDigit c || c == '-' || c == '+' || c == '.' || c == 'e' || c == 'E'

theorem length_lt_of_pieces? {s rest : List Char} {pieces : List Piece}
    (h : pieces? s = some (pieces, rest)) : rest.length < s.length := by
  fun_induction pieces? s generalizing pieces rest with
  | case1 => simp at h
  | case2 r => simp_all
  | case3 a b c d r n ps r' hn hr ih => simp_all; omega
  | case4 => simp at h
  | case5 c r d ps r' hd hr hc ih => simp_all; omega
  | case6 => simp at h
  | case7 => simp at h
  | case8 c r _ _ _ _ ps r' hr ih => simp_all; omega
  | case9 => simp at h

/-- The tokens of a text. -/
def tokens (s : List Char) : List Token :=
  match s with
  | [] => []
  | c :: rest =>
    if c = ' ' ∨ c = '\n' ∨ c = '\t' ∨ c = '\r' then tokens rest
    else if c = '[' then .openList :: tokens rest
    else if c = ']' then .closeList :: tokens rest
    else if c = '\x7b' then .openTable :: tokens rest
    else if c = '\x7d' then .closeTable :: tokens rest
    else if c = ':' then .colon :: tokens rest
    else if c = ',' then .comma :: tokens rest
    else if c = '"' then
      match _h : pieces? rest with
      | some (pieces, rest) => .text ((joinPieces pieces).map String.ofList) :: tokens rest
      | none => [.junk]
    else if isDigit c || c == '-' then
      match number? (c :: rest.takeWhile isNumeral) with
      | some d => .scalar d :: tokens (rest.dropWhile isNumeral)
      | none => [.junk]
    else if c :: rest.take 3 = ['t', 'r', 'u', 'e'] then
      .scalar (.boolean true) :: tokens (rest.drop 3)
    else if c :: rest.take 4 = ['f', 'a', 'l', 's', 'e'] then
      .scalar (.boolean false) :: tokens (rest.drop 4)
    else if c :: rest.take 3 = ['n', 'u', 'l', 'l'] then .scalar .null :: tokens (rest.drop 3)
    else [.junk]
termination_by s.length
decreasing_by
  all_goals simp only [List.length_cons, List.length_drop]
  all_goals first
    | omega
    | (have shorter := length_lt_of_pieces? (by assumption); omega)
    | (have shorter := (List.dropWhile_sublist isNumeral (l := rest)).length_le; omega)

end Cwmp.Json
