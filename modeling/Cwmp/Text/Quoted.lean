import Cwmp.Text.CodePoints
import Cwmp.Text.CommaList
import Cwmp.Text.Hex

/-! # Quoted text

A text in double quotes with escapes, as values are shown inside messages. The quote and the
backslash take a backslash, tab, line feed, carriage return and NUL their letters, and a character
that could not be seen or would melt into its neighbour is given by its number.
-/
namespace Cwmp.Text

def quotedChar (c : Char) : String :=
  if c = '"' then "\\\""
  else if c = '\\' then "\\\\"
  else if c = '\t' then "\\t"
  else if c = '\n' then "\\n"
  else if c = '\r' then "\\r"
  else if c.toNat = 0 then "\\0"
  else if 0x20 ≤ c.toNat ∧ c.toNat < 0x7F then c.toString
  else if isExtending c || isHidden c then "\\u\x7b" ++ hex c.toNat ++ "\x7d"
  else c.toString

def quoted (s : String) : String :=
  "\"" ++ String.join (s.toList.map quotedChar) ++ "\""

def quotedList (items : List String) : String :=
  "[" ++ joinWith ", " (items.map quoted) ++ "]"

end Cwmp.Text
