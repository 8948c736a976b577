import Cwmp.Doc.Basic
import Cwmp.Text.CommaList
import Cwmp.Text.Hex

/-! # Writing JSON

Two layouts: without any blank, or with one member or item a line and two blanks for every level of
nesting. Only quotes, backslashes and controls are escaped in texts. An alternative is written as a
structure whose only member is called like its tag.
-/
namespace Cwmp.Json

open Text

def charText (c : Char) : String :=
  if c = '"' then "\\\""
  else if c = '\\' then "\\\\"
  else if c = '\n' then "\\n"
  else if c = '\r' then "\\r"
  else if c = '\t' then "\\t"
  else if c.toNat = 8 then "\\b"
  else if c.toNat = 12 then "\\f"
  else if c.toNat < 0x20 then "\\u" ++ String.ofList (hexPadded 4 c.toNat)
  else c.toString

def quote (s : String) : String :=
  "\"" ++ String.join (s.toList.map charText) ++ "\""

def scalarText : Doc → String
  | .boolean b => if b then "true" else "false"
  | .integer i => decimalInt i
  | .text s | .plain s => quote s
  | _ => "null"

mutual

/-- The layout without blanks. -/
def compact : Doc → String
  | .list items => "[" ++ joinWith "," (compactItems items) ++ "]"
  | .table members => "\x7b" ++ joinWith "," (compactMembers members) ++ "\x7d"
  | .variant tag content => "\x7b" ++ quote tag ++ ":" ++ compact content ++ "\x7d"
  | d => scalarText d

def compactItems : List Doc → List String
  | [] => []
  | item :: items => compact item :: compactItems items

def compactMembers : List (Key × Doc) → List String
  | [] => []
  | (key, value) :: members => (quote key.text ++ ":" ++ compact value) :: compactMembers members

end

/-- A line break and the blanks before a line at a level. -/
def lineStart (level : Nat) : String :=
  "\n" ++ String.ofList (List.replicate (2 * level) ' ')

/-- Parts between brackets, each on a line of its own one level further in. -/
def block (first last : String) (level : Nat) (parts : List String) : String :=
  if parts = [] then first ++ last
  else first ++ lineStart (level + 1) ++ joinWith ("," ++ lineStart (level + 1)) parts ++
    lineStart level ++ last

mutual

/-- The layout in lines, for a value at a level. -/
def prettyAt (level : Nat) : Doc → String
  | .list items => block "[" "]" level (prettyItems (level + 1) items)
  | .table members => block "\x7b" "\x7d" level (prettyMembers (level + 1) members)
  | .variant tag content =>
    block "\x7b" "\x7d" level [quote tag ++ ": " ++ prettyAt (level + 1) content]
  | d => scalarText d

def prettyItems (level : Nat) : List Doc → List String
  | [] => []
  | item :: items => prettyAt level item :: prettyItems level items

def prettyMembers (level : Nat) : List (Key × Doc) → List String
  | [] => []
  | (key, value) :: members =>
    (quote key.text ++ ": " ++ prettyAt level value) :: prettyMembers level members

end

def pretty (d : Doc) : String :=
  prettyAt 0 d

end Cwmp.Json
