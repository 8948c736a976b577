import Cwmp.Text.Blank

/-! # Comma-separated lists

A list travels as its items joined by commas. Reading cuts at every comma, trims each piece and
drops the empty ones.
-/
namespace Cwmp.Text

/-- The pieces of a text between separators, one more than there are separators. -/
def splitAt (separator : Char) : List Char → List (List Char)
  | [] => [[]]
  | c :: rest =>
    if c = separator then [] :: splitAt separator rest
    else match splitAt separator rest with
      | [] => [[c]]
      | piece :: pieces => (c :: piece) :: pieces

theorem splitAt_ne_nil (separator : Char) (s : List Char) : splitAt separator s ≠ [] := by
  cases s with
  | nil => simp [splitAt]
  | cons c rest =>
    unfold splitAt
    split
    · simp
    · split <;> simp

def commaItems (s : String) : List String :=
  (((splitAt ',' s.toList).map trim).filter (· ≠ [])).map String.ofList

/-- The texts of a list with `separator` between neighbours. -/
def joinWith (separator : String) : List String → String
  | [] => ""
  | [item] => item
  | item :: items => item ++ separator ++ joinWith separator items

def commaText (items : List String) : String :=
  joinWith "," items

end Cwmp.Text
