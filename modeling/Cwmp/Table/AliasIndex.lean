import Cwmp.InstanceNumber

/-! # Alias indexes

Which row an alias stands for.
-/
namespace Cwmp

/-- Looking a name up does not see that the entries of another one are taken out. -/
theorem lookup_filter_of_ne {α : Type} {s t : String} (h : t ≠ s) (l : List (String × α)) :
    (l.filter fun p => p.1 != s).lookup t = l.lookup t := by
  induction l with
  | nil => rfl
  | cons p l ih =>
    obtain ⟨k, a⟩ := p
    by_cases hk : k = s
    · have ht : (t == k) = false := by simpa [hk] using h
      rw [List.filter_cons_of_neg (by simp [hk]), List.lookup_cons, ht, ih]
    · rw [List.filter_cons_of_pos (by simpa using hk), List.lookup_cons, List.lookup_cons, ih]

/-- Pairs of an alias and the row it stands for. -/
structure AliasIndex where
  entries : List (String × InstanceNumber) := []
deriving DecidableEq

namespace AliasIndex

/-- The row for which an alias stands. -/
def get? (x : AliasIndex) (s : String) : Option InstanceNumber :=
  x.entries.lookup s

def erase (x : AliasIndex) (s : String) : AliasIndex :=
  ⟨x.entries.filter fun p => p.1 != s⟩

/-- The index in which `s` stands for the row `i`. -/
def insert (x : AliasIndex) (s : String) (i : InstanceNumber) : AliasIndex :=
  ⟨(s, i) :: (x.erase s).entries⟩

@[simp] theorem get?_erase_self (x : AliasIndex) (s : String) : (x.erase s).get? s = none := by
  simp only [get?, erase, List.lookup_eq_none_iff, List.mem_filter]
  rintro p ⟨-, hp⟩
  simp only [bne_iff_ne, ne_eq] at hp
  simpa using fun h : s = p.1 => hp h.symm

theorem get?_erase_of_ne (x : AliasIndex) {s t : String} (h : t ≠ s) :
    (x.erase s).get? t = x.get? t :=
  lookup_filter_of_ne h x.entries

@[simp] theorem get?_insert_self (x : AliasIndex) (s : String) (i : InstanceNumber) :
    (x.insert s i).get? s = some i := by
  simp [get?, insert]

theorem get?_insert_of_ne (x : AliasIndex) {s t : String} (i : InstanceNumber) (h : t ≠ s) :
    (x.insert s i).get? t = x.get? t := by
  have hb : (t == s) = false := by simpa using h
  have := get?_erase_of_ne x h
  simpa [get?, insert, List.lookup_cons, hb] using this

end AliasIndex
end Cwmp
