import Cwmp.Alias
import Cwmp.Net.Mac

/-! # Documents

The tree that every written form of a document denotes, whatever its notation. A notation may leave
the type of an unquoted scalar to the reader: such a scalar is `plain`. Text that stops being
readable somewhere gives a tree with `broken` in that place and nothing after it, so that the
first fault in reading order is found by walking the tree.
-/
namespace Cwmp

/-- The key of a member: a name, or a row number written in decimal. -/
inductive Key
  | name (s : String)
  | index (n : Nat)
deriving DecidableEq, Repr

/-- A document or a part of one. -/
inductive Doc
  | null
  | boolean (b : Bool)
  | integer (i : Int)
  | text (s : String)
  /-- A scalar without quotes, whose type is up to its reader. -/
  | plain (s : String)
  /-- A scalar that no type of the data model holds, such as a fraction. -/
  | foreign
  | list (items : List Doc)
  | table (members : List (Key × Doc))
  /-- A value marked as one of several alternatives. -/
  | variant (tag : String) (content : Doc)
  /-- The place from which on the text cannot be read. -/
  | broken
deriving Inhabited

inductive LoadFault
  /-- The text is not well formed, or something of the wrong shape stands in it. -/
  | malformed
  /-- A word that is not in the vocabulary called `label`. -/
  | unknownWord (word label : String)
  | invalidMac (text : String)
  | invalidAlias (fault : AliasFault)
deriving DecidableEq, Repr

namespace LoadFault

/-- What is said of a fault beyond that there is one. -/
def message? : LoadFault → Option String
  | malformed => none
  | unknownWord word label => some ("'" ++ word ++ "' is not a valid " ++ label)
  | invalidMac text => some (Mac.invalidMessage text)
  | invalidAlias fault => some fault.message

end LoadFault

/-- A type whose values are written in documents. -/
class Codec (α : Type) where
  encode : α → Doc
  decode : Doc → Except LoadFault α

namespace Key

def text : Key → String
  | name s => s
  | index n => Text.decimal n

end Key

namespace Doc

mutual

/-- Whether the text of a value could be read to its end. -/
def intact : Doc → Bool
  | broken => false
  | list items => intactItems items
  | table members => intactMembers members
  | variant _ content => content.intact
  | _ => true

def intactItems : List Doc → Bool
  | [] => true
  | item :: items => item.intact && intactItems items

def intactMembers : List (Key × Doc) → Bool
  | [] => true
  | (_, value) :: members => value.intact && intactMembers members

end

/-- Steps over a value that nobody asked for. It still has to be readable. -/
def skip (d : Doc) : Except LoadFault Unit :=
  if d.intact then .ok () else .error .malformed

/-- The members of a structure or a table of rows. In a notation with plain scalars an empty one
stands for no members. -/
def members? : Doc → Option (List (Key × Doc))
  | table members => some members
  | plain "" => some []
  | _ => none

/-- The text of a value, be it quoted or plain. -/
def asText : Doc → Except LoadFault String
  | text s | plain s => .ok s
  | _ => .error .malformed

end Doc
end Cwmp
