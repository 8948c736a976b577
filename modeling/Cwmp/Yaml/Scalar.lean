import Cwmp.Doc.Plain
import Cwmp.Text.CommaList
import Cwmp.Text.Hex

/-! # YAML scalars and flow collections

The parts of a document that are delimited by marks of their own: quoted texts, and lists and
structures in brackets. Each reader returns what follows. Line breaks inside quotes are folded: one
break counts as a blank, of several the first is dropped.
-/
namespace Cwmp.Yaml

open Text

def isPad (c : Char) : Bool :=
  c == ' ' || c == '\t'

/-- A text read backwards, without the blanks at its end. -/
def dropPads (done : List Char) : List Char :=
  done.dropWhile isPad

/-- The breaks that `n` line ends inside a scalar stand for. -/
def folded (n : Nat) : List Char :=
  if n = 1 then [' '] else List.replicate (n - 1) '\n'

/-- Steps over line ends and the blanks around them, counting the ends. -/
def skipBreaks (n : Nat) : List Char → Nat × List Char
  | [] => (n, [])
  | c :: rest =>
    if c = '\n' then skipBreaks (n + 1) rest
    else if isPad c then skipBreaks n rest
    else (n, c :: rest)

def escape? (c : Char) : Option Char :=
  [('0', 0), ('a', 7), ('b', 8), ('t', 9), ('\t', 9), ('n', 10), ('v', 11), ('f', 12), ('r', 13),
    ('e', 27), (' ', 32), ('"', 34), ('/', 47), ('\\', 92), ('N', 0x85), ('_', 0xA0),
    ('L', 0x2028), ('P', 0x2029)].lookup c |>.map Char.ofNat

/-- How many digits follow the letter of a numeric escape. -/
def escapeWidth? (c : Char) : Option Nat :=
  [('x', 2), ('u', 4), ('U', 8)].lookup c

def numbered? (digits : List Char) : Option Char :=
  (hexFrom 0 digits).bind fun n => if n.isValidChar then some (Char.ofNat n) else none

/-- The rest of a text in single quotes, after `done`. -/
def singleQuotedText (fuel : Nat) (done : List Char) (s : List Char) :
    Option (List Char × List Char) :=
  match fuel, s with
  | 0, _ | _, [] => none
  | fuel + 1, '\'' :: '\'' :: rest => singleQuotedText fuel ('\'' :: done) rest
  | _, '\'' :: rest => some (done.reverse, rest)
  | fuel + 1, c :: rest =>
    if c = '\n' then
      let (n, rest) := skipBreaks 1 rest
      singleQuotedText fuel ((folded n).reverse ++ dropPads done) rest
    else singleQuotedText fuel (c :: done) rest

/-- The rest of a text in double quotes, after `done`. -/
def doubleQuotedText (fuel : Nat) (done : List Char) (s : List Char) :
    Option (List Char × List Char) :=
  match fuel, s with
  | 0, _ | _, [] => none
  | _, '"' :: rest => some (done.reverse, rest)
  | fuel + 1, '\\' :: c :: rest =>
    if c = '\n' then doubleQuotedText fuel done (rest.dropWhile isPad)
    else match escape? c, escapeWidth? c with
      | some d, _ => doubleQuotedText fuel (d :: done) rest
      | none, some width =>
        if (rest.take width).length = width then
          match numbered? (rest.take width) with
          | some d => doubleQuotedText fuel (d :: done) (rest.drop width)
          | none => none
        else none
      | none, none => none
  | fuel + 1, c :: rest =>
    if c = '\n' then
      let (n, rest) := skipBreaks 1 rest
      doubleQuotedText fuel ((folded n).reverse ++ dropPads done) rest
    else doubleQuotedText fuel (c :: done) rest

def quotedText (s : List Char) : Option (List Char × List Char) :=
  match s with
  | '\'' :: rest => singleQuotedText (rest.length + 1) [] rest
  | '"' :: rest => doubleQuotedText (rest.length + 1) [] rest
  | _ => none

/-- Steps over blanks, line ends and comments between the parts of a collection. -/
def skipSpace (afterBlank : Bool) : List Char → List Char
  | [] => []
  | c :: rest =>
    if isPad c || c == '\n' then skipSpace true rest
    else if c == '#' && afterBlank then skipComment rest
    else c :: rest
where
  skipComment : List Char → List Char
    | [] => []
    | c :: rest => if c = '\n' then skipSpace true rest else skipComment rest

/-- The marks that structure collections in brackets. -/
def isFlowMark (c : Char) : Bool :=
  c == ',' || c == '[' || c == ']' || c == '\x7b' || c == '\x7d'

/-- A scalar without quotes inside a collection, after `done`. -/
def flowPlain (done : List Char) : List Char → List Char × List Char
  | [] => ((dropPads done).reverse, [])
  | c :: rest =>
    if isFlowMark c || (c == '#' && done.head?.all isPad) || c == '\n' ||
        (c == ':' && rest.head?.all fun d => isPad d || d == '\n' || isFlowMark d) then
      ((dropPads done).reverse, c :: rest)
    else flowPlain (c :: done) rest

/-- Characters with which no plain scalar begins. -/
def startsNoPlain (c : Char) : Bool :=
  "#&*!|>'\"%@\x60".toList.contains c || isFlowMark c

/-- The key for a scalar without quotes: whole numbers are row numbers. -/
def plainKey (s : String) : Key :=
  match Plain.natural? s with
  | some n => .index n
  | none => .name s

/-- A scalar in a collection: its key and its value. -/
def flowScalar (s : List Char) : Option (Key × Doc × List Char) :=
  match s with
  | [] => none
  | c :: rest =>
    if c = '\'' ∨ c = '"' then
      (quotedText s).map fun (t, rest) => (.name (String.ofList t), .text (String.ofList t), rest)
    else if startsNoPlain c || ((c == '-' || c == '?' || c == ':') &&
        rest.head?.all fun d => isPad d || d == '\n' || isFlowMark d) then none
    else
      let (t, rest) := flowPlain [] s
      let t := String.ofList t
      some (plainKey t, .plain t, rest)

/-- What is being read inside brackets. -/
inductive FlowPart
  | value
  | items (done : List Doc)
  | members (done : List (Key × Doc))

/-- Reads a value, or what is left of a collection whose opening bracket has been read. -/
def flow (fuel : Nat) (part : FlowPart) (s : List Char) : Option (Doc × List Char) :=
  match fuel with
  | 0 => none
  | fuel + 1 =>
    let s := skipSpace true s
    match part, s with
    | .value, '[' :: rest => flow fuel (.items []) rest
    | .value, '\x7b' :: rest => flow fuel (.members []) rest
    | .value, s => (flowScalar s).map fun (_, d, rest) => (d, rest)
    | .items done, ']' :: rest => some (.list done.reverse, rest)
    | .items done, s =>
      match flow fuel .value s with
      | none => none
      | some (d, rest) =>
        match skipSpace false rest with
        | ',' :: rest => flow fuel (.items (d :: done)) rest
        | ']' :: rest => some (.list (d :: done).reverse, rest)
        | _ => none
    | .members done, '\x7d' :: rest => some (.table done.reverse, rest)
    | .members done, s =>
      match flowScalar s with
      | none => none
      | some (key, _, rest) =>
        let rest := skipSpace false rest
        let value :=
          match rest with
          | ':' :: rest =>
            match skipSpace true rest with
            | c :: rest =>
              if c = ',' ∨ c = '\x7d' then some (.plain "", c :: rest)
              else flow fuel .value (c :: rest)
            | [] => none
          | _ => some (.plain "", rest)
        match value with
        | none => none
        | some (d, rest) =>
          match skipSpace false rest with
          | ',' :: rest => flow fuel (.members ((key, d) :: done)) rest
          | '\x7d' :: rest => some (.table ((key, d) :: done).reverse, rest)
          | _ => none

end Cwmp.Yaml
