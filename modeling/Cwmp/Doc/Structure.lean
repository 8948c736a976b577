import Cwmp.Doc.Basic

/-! # Structures and words in documents

Reading structures with fixed members, all of which faults are alike, and words that are written as
an alternative without content.
-/
namespace Cwmp.Doc

def member? (name : String) : List (Key × Doc) → Option Doc
  | [] => none
  | (key, d) :: members => if key = .name name then some d else member? name members

def occurrences (name : String) (members : List (Key × Doc)) : Nat :=
  (members.filter fun p => p.1 = .name name).length

/-- The values of the members `names`. None of them may occur twice, and without names there have
to be as many values as members. -/
def structure? (names : List String) : Doc → Option (List (Option Doc))
  | table members =>
    if intactMembers members ∧ ∀ name ∈ names, occurrences name members ≤ 1 then
      some (names.map fun name => member? name members)
    else none
  | list items => if items.length = names.length then some (items.map some) else none
  | _ => none

/-- The word of an alternative without content: a text, or a single member without value. -/
def word? : Doc → Option String
  | text s | table [(.name s, null)] => some s
  | _ => none

def textOnly? : Doc → Option String
  | text s | plain s => some s
  | _ => none

/-- A value that is read or else malformed. -/
def orMalformed {α : Type} : Option α → Except LoadFault α
  | some a => .ok a
  | none => .error .malformed

end Cwmp.Doc
