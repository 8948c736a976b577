import Cwmp.Text.CommaList
import Cwmp.Text.Decimal
import Cwmp.Text.Quoted
import Cwmp.Time.Rfc3339

/-! # Values

The value of a parameter apart from the parameter: one of six types. Numbers are 64 bits wide on
their way, whatever the width of the parameter that takes them.
-/
namespace Cwmp

inductive Value
  | boolean (b : Bool)
  | int (i : Int)
  | unsigned (n : Nat)
  | text (s : String)
  | moment (t : Instant)
  | list (items : List String)
deriving DecidableEq

namespace Value

open Text

def typeWord : Value → String
  | boolean _ => "boolean"
  | int _ => "int"
  | unsigned _ => "unsignedInt"
  | text _ => "string"
  | moment _ => "dateTime"
  | list _ => "list"

def booleanText (b : Bool) : String :=
  if b then "true" else "false"

/-- The text of a value as it travels. -/
def write : Value → String
  | boolean b => booleanText b
  | int i => decimalInt i
  | unsigned n => decimal n
  | text s => s
  | moment t => Rfc3339.write t
  | list items => commaText items

/-- A value with its type, as shown in messages. -/
def describe : Value → String
  | boolean b => "Boolean(" ++ booleanText b ++ ")"
  | int i => "Int(" ++ decimalInt i ++ ")"
  | unsigned n => "UnsignedInt(" ++ decimal n ++ ")"
  | text s => "String(" ++ quoted s ++ ")"
  | moment t => "DateTime(" ++ Rfc3339.writeExact t ++ ")"
  | list items => "List(" ++ quotedList items ++ ")"

end Value
end Cwmp
