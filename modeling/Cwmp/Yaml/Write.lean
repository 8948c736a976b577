import Cwmp.Doc.Plain
import Cwmp.Text.CommaList

/-! # Writing YAML

Documents in block style, two blanks for every level of nesting; a list in a structure is not
indented further than its key. A text stands without quotes where it is read back as that text.
Otherwise it is put in single quotes, and in double quotes if a character has to be escaped. A text
of several lines is written as a literal block.
-/
namespace Cwmp.Yaml

open Text

def isBreak (c : Char) : Bool :=
  c == '\n' || c == '\r' || c.toNat == 0x85 || c.toNat == 0x2028 || c.toNat == 0x2029

def isPrintable (c : Char) : Bool :=
  let n := c.toNat
  n == 0x0A || (0x20 ≤ n && n ≤ 0x7E) || (0xA0 ≤ n && n ≤ 0xFFFD && n != 0xFEFF)

def isBlankOrBreak (c : Char) : Bool :=
  c == ' ' || c == '\t' || isBreak c || c.toNat == 0

/-- Whether a scalar begins like something that is no text. -/
def startsSpecially : List Char → Bool
  | [] => false
  | c :: rest =>
    "#,[]\x7b\x7d&*!|>'\"%@\x60".toList.contains c ||
      ((c == '?' || c == ':' || c == '-') && rest.head?.all isBlankOrBreak) ||
      ['-', '-', '-'].isPrefixOf (c :: rest) || ['.', '.', '.'].isPrefixOf (c :: rest)

/-- Whether a mark inside a scalar would end it: a colon before a blank, or a number sign after
one. -/
def isCutShort : List Char → Bool
  | [] => false
  | [c] => c == ':'
  | c :: d :: rest =>
    (c == ':' && isBlankOrBreak d) || (isBlankOrBreak c && d == '#') || isCutShort (d :: rest)

/-- Whether a blank and a break stand next to each other in this order. -/
def hasBlankBeforeBreak : List Char → Bool
  | c :: d :: rest => (c == ' ' && isBreak d) || hasBlankBeforeBreak (d :: rest)
  | _ => false

def hasBreakBeforeBlank : List Char → Bool
  | c :: d :: rest => (isBreak c && d == ' ') || hasBreakBeforeBlank (d :: rest)
  | _ => false

/-- A text that keeps its characters when its lines are folded or indented. -/
def isFoldable (s : List Char) : Bool :=
  s.all isPrintable && !hasBlankBeforeBreak s

/-- A text that single quotes can hold. -/
def fitsSingleQuotes (s : List Char) : Bool :=
  isFoldable s && !hasBreakBeforeBlank s

/-- A text that can stand without quotes, whatever it may then be taken for. -/
def fitsPlain (s : List Char) : Bool :=
  isFoldable s && !s.any isBreak && s.head? != some ' ' && s.getLast? != some ' ' &&
    !startsSpecially s && !isCutShort s

/-- A text that a literal block can hold. -/
def fitsBlock (s : List Char) : Bool :=
  isFoldable s && s.getLast? != some ' '

def upperHex (width n : Nat) : String :=
  String.ofList ((hexPadded width n).map Char.toUpper)

def escapedChar (c : Char) : String :=
  let n := c.toNat
  if c = '"' then "\\\""
  else if c = '\\' then "\\\\"
  else if isPrintable c && !isBreak c then c.toString
  else match n with
    | 0 => "\\0"
    | 7 => "\\a"
    | 8 => "\\b"
    | 9 => "\\t"
    | 10 => "\\n"
    | 11 => "\\v"
    | 12 => "\\f"
    | 13 => "\\r"
    | 27 => "\\e"
    | 0x85 => "\\N"
    | 0x2028 => "\\L"
    | 0x2029 => "\\P"
    | _ =>
      if n ≤ 0xFF then "\\x" ++ upperHex 2 n
      else if n ≤ 0xFFFF then "\\u" ++ upperHex 4 n
      else "\\U" ++ upperHex 8 n

def doubleQuoted (s : List Char) : String :=
  "\"" ++ String.join (s.map escapedChar) ++ "\""

def singleQuoted (s : List Char) : String :=
  "'" ++ String.join (s.map fun c => if c = '\'' then "''" else c.toString) ++ "'"

def blanks (n : Nat) : String :=
  String.ofList (List.replicate n ' ')

/-- The marks after the bar of a literal block: how far it is indented where its text does not
show it, and how many breaks end it. -/
def blockMarks (s : List Char) : String :=
  (if s.head?.any (fun c => c == ' ' || isBreak c) then "2" else "") ++
    match s.reverse with
    | c :: rest =>
      if !isBreak c then "-"
      else if rest.head?.all isBreak then "+" else ""
    | [] => "-"

/-- A literal block whose lines start after `indent` blanks. -/
def literal (indent : Nat) (s : List Char) : String :=
  let lines := (splitAt '\n' s).map fun line =>
    if line = [] then "" else blanks indent ++ String.ofList line
  "|" ++ blockMarks s ++ "\n" ++ joinWith "\n" lines

/-- The scalar for a text; a literal block is indented by two more than `level`. -/
def textScalar (level : Nat) (s : String) : String :=
  let chars := s.toList
  if chars.contains '\n' then
    if fitsBlock chars then
      let block := literal (level + 2) chars
      if chars.getLast? = some '\n' then (block.dropEnd 1).toString else block
    else doubleQuoted chars
  else if !Plain.isAmbiguous s && fitsPlain chars then s
  else if fitsSingleQuotes chars then singleQuoted chars
  else doubleQuoted chars

def scalarText (level : Nat) : Doc → String
  | .boolean b => if b then "true" else "false"
  | .integer i => decimalInt i
  | .text s | .plain s => textScalar level s
  | .list _ => "[]"
  | .table _ => "\x7b\x7d"
  | _ => "null"

def keyText (level : Nat) : Key → String
  | .name s => textScalar level s
  | .index n => decimal n

mutual

/-- A value after the key of a structure at a level, with the blank or break before it. -/
def afterKey (level : Nat) : Doc → String
  | .list (item :: items) => "\n" ++ blanks level ++ itemLines level (item :: items)
  | .table (m :: members) => "\n" ++ blanks (level + 2) ++ memberLines (level + 2) (m :: members)
  | .variant tag content => " !" ++ tag ++ afterKey level content
  | d => " " ++ scalarText level d ++ "\n"

/-- A value after the dash of a list at a level. -/
def afterDash (level : Nat) : Doc → String
  | .list (item :: items) => " " ++ itemLines (level + 2) (item :: items)
  | .table (m :: members) => " " ++ memberLines (level + 2) (m :: members)
  | .variant tag content => " !" ++ tag ++ afterKey level content
  | d => " " ++ scalarText level d ++ "\n"

/-- Items of a list; the blanks before the first one have been written. -/
def itemLines (level : Nat) : List Doc → String
  | [] => ""
  | [item] => "-" ++ afterDash level item
  | item :: items => "-" ++ afterDash level item ++ blanks level ++ itemLines level items

/-- Members of a structure; the blanks before the first one have been written. -/
def memberLines (level : Nat) : List (Key × Doc) → String
  | [] => ""
  | [(key, value)] => keyText level key ++ ":" ++ afterKey level value
  | (key, value) :: members =>
    keyText level key ++ ":" ++ afterKey level value ++ blanks level ++ memberLines level members

end

def write : Doc → String
  | .list (item :: items) => itemLines 0 (item :: items)
  | .table (m :: members) => memberLines 0 (m :: members)
  | .variant tag content => "!" ++ tag ++ afterKey 0 content
  | d => scalarText 0 d ++ "\n"

end Cwmp.Yaml
