import Cwmp.Text.Blank
import Cwmp.Text.Decimal
import Cwmp.Text.Hex
import Cwmp.Text.Real
import Cwmp.Toml.Basic

/-! # Settings in the environment

Variables whose names begin with a common mark override settings. What follows the mark is the path
of a setting, in any case of letters, with double underscores between its parts. The value is read
as a word, a number, a list in brackets or named values in braces where it has that form, and is a
plain text otherwise.
-/
namespace Cwmp.Environment

open Text Toml

/-- A character that ends a value without quotes. -/
def isSeparator (c : Char) : Bool :=
  c == ',' || c == '\x7b' || c == '\x7d' || c == '[' || c == ']'

def skipBlanks (s : List Char) : List Char :=
  s.dropWhile isAsciiBlank

/-- The rest of a text in double quotes, after `done`. -/
def quotedText (fuel : Nat) (done : List Char) (s : List Char) : Option (String × List Char) :=
  match fuel, s with
  | 0, _ | _, [] => none
  | _, '"' :: rest => some (String.ofList done.reverse, rest)
  | fuel + 1, '\\' :: c :: rest =>
    match [('b', 8), ('f', 12), ('n', 10), ('r', 13), ('t', 9), ('"', 34), ('\\', 92)].lookup c with
    | some n => quotedText fuel (Char.ofNat n :: done) rest
    | none =>
      let width := if c = 'u' then 4 else if c = 'U' then 8 else 0
      if width = 0 ∨ (rest.take width).length ≠ width then none
      else match hexFrom 0 (rest.take width) with
        | some n =>
          if n.isValidChar then quotedText fuel (Char.ofNat n :: done) (rest.drop width) else none
        | none => none
  | fuel + 1, c :: rest => quotedText fuel (c :: done) rest

/-- A value without quotes: a number, or its text without blanks around it. -/
def plainValue (s : List Char) : Setting :=
  let body := trim s
  if body.contains '.' && (real? body).isSome then .real
  else match unsigned? uint64Max body with
    | some n => .integer n
    | none =>
      match signed? int64Min int64Max body with
      | some i => .integer i
      | none => .text (String.ofList body)

def isNameChar (c : Char) : Bool :=
  isDigit c || ('a' ≤ c && c ≤ 'z') || ('A' ≤ c && c ≤ 'Z') || c == '_' || c == '-'

/-- A name in braces, with the sign after it. -/
def name? (s : List Char) : Option (String × List Char) :=
  let s := skipBlanks s
  let found := match s with
    | '"' :: rest => quotedText (rest.length + 1) [] rest
    | _ =>
      let name := s.takeWhile isNameChar
      if name = [] then none else some (String.ofList name, s.drop name.length)
  match found with
  | some (name, rest) =>
    match skipBlanks rest with
    | '=' :: rest => some (name, rest)
    | _ => none
  | none => none

/-- What is being read: a value, or what is left of a list or of named values. -/
inductive Part
  | value
  | items (done : List Setting)
  | members (done : Members)

/-- Reads a value, or the rest of one whose opening bracket has been read. -/
def part? (fuel : Nat) (part : Part) (s : List Char) : Option (Setting × List Char) :=
  match fuel with
  | 0 => none
  | fuel + 1 =>
    match part with
    | .value =>
      let s := skipBlanks s
      let found :=
        if ['t', 'r', 'u', 'e'].isPrefixOf s then some (.boolean true, s.drop 4)
        else if ['f', 'a', 'l', 's', 'e'].isPrefixOf s then some (.boolean false, s.drop 5)
        else match s with
          | '\x7b' :: rest => part? fuel (.members []) rest
          | '[' :: rest => part? fuel (.items []) rest
          | '"' :: rest =>
            (quotedText (rest.length + 1) [] rest).map fun (t, rest) => (.text t, rest)
          | '\'' :: c :: '\'' :: rest => some (.text c.toString, rest)
          | '\'' :: _ => none
          | _ =>
            let word := s.takeWhile fun c => !isSeparator c
            some (plainValue word, s.drop word.length)
      found.map fun (v, rest) => (v, skipBlanks rest)
    | .items done =>
      match s with
      | ']' :: rest => some (.list done.reverse, rest)
      | s =>
        match part? fuel .value s with
        | some (v, ',' :: rest) => part? fuel (.items (v :: done)) rest
        | some (v, ']' :: rest) => some (.list (v :: done).reverse, rest)
        | _ => none
    | .members done =>
      match s with
      | '\x7d' :: rest => some (.table .closed done, rest)
      | s =>
        match name? s with
        | none => none
        | some (name, rest) =>
          match part? fuel .value rest with
          | some (v, ',' :: rest) => part? fuel (.members (done.set name v)) rest
          | some (v, '\x7d' :: rest) => some (.table .closed (done.set name v), rest)
          | _ => none

def value (s : String) : Setting :=
  match part? (2 * s.length + 2) .value s.toList with
  | some (v, []) => v
  | _ => .text s

/-- The parts of a name between double underscores. -/
def pathParts (done : List Char) : List Char → List String
  | [] => [String.ofList done.reverse]
  | '_' :: '_' :: rest => String.ofList done.reverse :: pathParts [] rest
  | c :: rest => pathParts (c :: done) rest

/-- A variable's setting, if it has one. -/
def setting? (start : String) (name text : String) : Option (List String × Setting) :=
  let lower := (trim name.toList).map Char.toLower
  let mark := start.toList.map Char.toLower
  let path := lower.drop mark.length
  if mark.isPrefixOf lower ∧ path ≠ [] then some (pathParts [] path, value text) else none

/-- A value at the end of a path, as nested tables. -/
def nest (path : List String) (v : Setting) : Setting :=
  path.foldr (fun name v => .table .closed [(name, v)]) v

end Cwmp.Environment
