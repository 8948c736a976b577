import Cwmp.InstanceNumber
import Cwmp.Text.Blank

/-! # Aliases

The name by which a row is known to its users. It begins with an ASCII letter, goes on with ASCII
letters, digits, dashes and underscores, and takes at most 64 bytes. The device names a row that
was created without an alias after its instance number.
-/
namespace Cwmp

inductive AliasFlaw
  | empty
  | tooLong
  | noLetter
  | badCharacter (c : Char)
deriving DecidableEq, Repr

/-- A text that was meant as an alias, and its flaw. -/
structure AliasFault where
  text : String
  flaw : AliasFlaw
deriving DecidableEq, Repr

namespace Alias

def maxLength : Nat := 64

def isLetter (c : Char) : Bool :=
  ('a' ≤ c && c ≤ 'z') || ('A' ≤ c && c ≤ 'Z')

/-- A character that may stand inside an alias. -/
def isInner (c : Char) : Bool :=
  isLetter c || Text.isDigit c || c == '-' || c == '_'

def flaw? (s : String) : Option AliasFlaw :=
  match s.toList with
  | [] => some .empty
  | c :: rest =>
    if maxLength < Text.byteLength (c :: rest) then some .tooLong
    else if !isLetter c then some .noLetter
    else ((c :: rest).find? fun d => !isInner d).map .badCharacter

def IsValid (s : String) : Prop :=
  flaw? s = none

instance (s : String) : Decidable (IsValid s) :=
  inferInstanceAs (Decidable (_ = _))

def check (s : String) : Except AliasFault String :=
  match flaw? s with
  | none => .ok s
  | some flaw => .error ⟨s, flaw⟩

/-- The alias by which the device names the row `i`. -/
def ofDevice (aliasStart : String) (i : InstanceNumber) : Except AliasFault String :=
  check (aliasStart ++ i.text)

theorem check_eq_ok_iff {s t : String} : check s = .ok t ↔ IsValid s ∧ t = s := by
  unfold check IsValid
  cases flaw? s <;> simp [eq_comm]

end Alias

namespace AliasFlaw

def message : AliasFlaw → String
  | empty => "must not be empty"
  | tooLong => "longer than " ++ Text.decimal Alias.maxLength ++ " characters"
  | noLetter => "must start with a letter"
  | badCharacter c => "contains '" ++ c.toString ++ "'"

end AliasFlaw

def AliasFault.message (f : AliasFault) : String :=
  "Invalid alias '" ++ f.text ++ "': " ++ f.flaw.message

end Cwmp
