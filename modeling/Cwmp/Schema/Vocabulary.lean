/-! # Vocabularies

A type whose values are named by fixed words. Words are told apart by every letter, and no two
values share one.
-/
namespace Cwmp

/-- A type with a word for each of its values. -/
class Vocabulary (V : Type) where
  label : String
  all : List V
  word : V → String
  mem_all : ∀ a, a ∈ all
  word_injective : ∀ {a b}, word a = word b → a = b

namespace Vocabulary

variable {V : Type} [Vocabulary V]

variable (V) in
def words : List String :=
  (all (V := V)).map word

def ofWord? (s : String) : Option V :=
  all.find? fun a => word a == s

@[simp] theorem ofWord?_word (a : V) : ofWord? (word a) = some a := by
  unfold ofWord?
  cases h : (all (V := V)).find? fun b => word b == word a with
  | none =>
    have := List.find?_eq_none.1 h a (mem_all a)
    simp at this
  | some b =>
    have := List.find?_some h
    exact congrArg some (word_injective (by simpa using this))

theorem word_of_ofWord? {s : String} {a : V} (h : ofWord? s = some a) : word a = s := by
  have := List.find?_some h
  simpa using this

theorem mem_words_iff {s : String} : s ∈ words V ↔ ∃ a : V, ofWord? s = some a := by
  constructor
  · intro h
    obtain ⟨a, -, rfl⟩ := List.mem_map.1 h
    exact ⟨a, ofWord?_word a⟩
  · rintro ⟨a, h⟩
    exact List.mem_map.2 ⟨a, mem_all a, word_of_ofWord? h⟩

end Vocabulary
end Cwmp
