import Cwmp.Toml.Scalar

/-! # Reading settings files

A file is a sequence of headers and of assignments, one a line, with blanks and comments around
them. An assignment belongs to the table of the header before it.
-/
namespace Cwmp.Toml

open Text

def isPad (c : Char) : Bool :=
  c == ' ' || c == '\t'

def skipPads (s : List Char) : List Char :=
  s.dropWhile isPad

/-- A character of a key without quotes. -/
def isBare (c : Char) : Bool :=
  isDigit c || ('a' ≤ c && c ≤ 'z') || ('A' ≤ c && c ≤ 'Z') || c == '-' || c == '_'

def keyPart (s : List Char) : Option (String × List Char) :=
  match s with
  | '"' :: rest => basicText (rest.length + 1) [] rest
  | '\'' :: rest => literalText [] rest
  | _ =>
    let part := s.takeWhile isBare
    if part = [] then none else some (String.ofList part, s.drop part.length)

/-- A key: parts with dots between them, and what follows it and the blanks after it. -/
def key? (fuel : Nat) (s : List Char) : Option (List String × List Char) :=
  match fuel with
  | 0 => none
  | fuel + 1 =>
    match keyPart (skipPads s) with
    | none => none
    | some (part, rest) =>
      match skipPads rest with
      | '.' :: rest => (key? fuel rest).map fun (parts, rest) => (part :: parts, rest)
      | rest => some ([part], rest)

/-- A comment up to the end of its line; nothing if a control stands in it. -/
def comment? (s : List Char) : Option (List Char) :=
  match s with
  | '#' :: rest =>
    let body := rest.takeWhile fun c => c != '\n' && c != '\r'
    if body.all isPrinting then some (rest.drop body.length) else none
  | _ => some s

/-- What follows the end of a line: blanks, a comment and a break. -/
def lineEnd? (s : List Char) : Option (List Char) :=
  match comment? (skipPads s) with
  | some [] => some []
  | some rest => afterBreak? rest
  | none => none

/-- Steps over blanks, breaks and comments. -/
def skipLines (fuel : Nat) (s : List Char) : List Char :=
  match fuel with
  | 0 => s
  | fuel + 1 =>
    let s := skipPads s
    match afterBreak? s with
    | some rest => skipLines fuel rest
    | none =>
      match s, comment? s with
      | '#' :: _, some rest => skipLines fuel rest
      | _, _ => s

def endsWord (c : Char) : Bool :=
  isPad c || c == '\n' || c == '\r' || c == ',' || c == ']' || c == '\x7d' || c == '#'

/-- A value without quotes. A blank between a date and a time belongs to it. -/
def wordValue (s : List Char) : Option (Setting × List Char) :=
  let first := s.takeWhile fun c => !endsWord c
  let rest := s.drop first.length
  let time := match rest with
    | ' ' :: more => more.takeWhile fun c => !endsWord c
    | _ => []
  if isDate first && time.head?.any isDigit then
    (word? (first ++ ' ' :: time)).map fun v => (v, rest.drop (time.length + 1))
  else (word? first).map fun v => (v, rest)

/-- What is being read: a value, or what is left of a list or of a table in braces. -/
inductive Part
  | value
  | items (done : List Setting)
  | members (done : Members)

/-- Reads a value, or the rest of one whose opening bracket has been read. -/
def value? (fuel : Nat) (part : Part) (s : List Char) : Option (Setting × List Char) :=
  match fuel with
  | 0 => none
  | fuel + 1 =>
    match part with
    | .value =>
      match s with
      | '[' :: rest => value? fuel (.items []) rest
      | '\x7b' :: rest =>
        match skipPads rest with
        | '\x7d' :: rest => some (.table .closed [], rest)
        | rest => value? fuel (.members []) rest
      | c :: _ =>
        if c = '"' ∨ c = '\'' then (textValue s).map fun (t, rest) => (.text t, rest)
        else wordValue s
      | [] => none
    | .items done =>
      match skipLines (s.length + 1) s with
      | ']' :: rest => some (.list done.reverse, rest)
      | s =>
        match value? fuel .value s with
        | none => none
        | some (v, rest) =>
          match skipLines (rest.length + 1) rest with
          | ',' :: rest => value? fuel (.items (v :: done)) rest
          | ']' :: rest => some (.list (v :: done).reverse, rest)
          | _ => none
    | .members done =>
      match key? (s.length + 1) s with
      | some (path, '=' :: rest) =>
        match value? fuel .value (skipPads rest) with
        | none => none
        | some (v, rest) =>
          match done.assign path v, skipPads rest with
          | some done, ',' :: rest => value? fuel (.members done) rest
          | some done, '\x7d' :: rest => some (.table .closed done, rest)
          | _, _ => none
      | _ => none

/-- A header: its path, whether it opens one of a list of tables, and what follows its line. -/
def header? (s : List Char) : Option (List String × Bool × List Char) :=
  match s with
  | '[' :: '[' :: rest =>
    match key? (s.length + 1) rest with
    | some (path, ']' :: ']' :: rest) => (lineEnd? rest).map fun rest => (path, true, rest)
    | _ => none
  | '[' :: rest =>
    match key? (s.length + 1) rest with
    | some (path, ']' :: rest) => (lineEnd? rest).map fun rest => (path, false, rest)
    | _ => none
  | _ => none

/-- Reads lines in turn, the path of the last header and what has been read being given. -/
def lines? (fuel : Nat) (current : List String) (m : Members) (s : List Char) : Option Members :=
  match fuel with
  | 0 => none
  | fuel + 1 =>
    match skipLines (s.length + 1) s with
    | [] => some m
    | '[' :: rest =>
      match header? ('[' :: rest) with
      | none => none
      | some (path, isList, rest) =>
        let opened := m.edit .implied path.dropLast fun inner =>
          match path.getLast? with
          | some name => if isList then inner.openNext name else inner.openTable name
          | none => none
        match opened with
        | some m => lines? fuel path m rest
        | none => none
    | s =>
      match key? (s.length + 1) s with
      | some (path, '=' :: rest) =>
        match value? (2 * s.length + 2) .value (skipPads rest) with
        | none => none
        | some (v, rest) =>
          match m.edit .implied current (fun inner => inner.assign path v), lineEnd? rest with
          | some m, some rest => lines? fuel current m rest
          | _, _ => none
      | _ => none

def read? (s : String) : Option Members :=
  let chars := s.toList
  let chars := if chars.head? = some '\uFEFF' then chars.drop 1 else chars
  lines? (chars.length + 1) [] [] chars

end Cwmp.Toml
