import Cwmp.InstanceNumber
import Mathlib.Data.List.InsertIdx
import Mathlib.Tactic

/-! # Moves within a list

What a list of row numbers looks like after one of them has been put into a place, all others
keeping their order.
-/
namespace Cwmp

variable {l : List InstanceNumber} {i : InstanceNumber} {k : Nat}

def place (l : List InstanceNumber) (i : InstanceNumber) (k : Nat) : List InstanceNumber :=
  (l.erase i).insertIdx (k - 1) i

/-- The list in which `i`, if it is there, has got the rank `r`: further to the front it is then
the `r`th. Further to the back it comes after all with smaller ranks, itself left out, and a rank
beyond the end is one of the end. -/
def moveTo (l : List InstanceNumber) (i : InstanceNumber) (r : Nat) : List InstanceNumber :=
  if i ∈ l then place l i (if r ≤ l.idxOf i + 1 then r else min (r - 1) l.length) else l

theorem insertIdx_length_left (front back : List InstanceNumber) (i : InstanceNumber) :
    (front ++ back).insertIdx front.length i = front ++ i :: back := by
  induction front with
  | nil => rfl
  | cons j front ih => simp [ih]

theorem split_eq_insertIdx (h : l.Nodup) (k : Nat) :
    (l.take k).filter (· != i) ++ i :: (l.drop k).filter (· != i) =
      (l.erase i).insertIdx ((l.take k).filter (· != i)).length i := by
  have herase : l.erase i = (l.take k).filter (· != i) ++ (l.drop k).filter (· != i) := by
    rw [h.erase_eq_filter, ← List.filter_append, List.take_append_drop]
  rw [herase, insertIdx_length_left]

theorem split_eq_place (h : l.Nodup) (hi : i ∉ l) (r : Nat) :
    (l.take (r - 1)).filter (· != i) ++ i :: (l.drop (r - 1)).filter (· != i) =
      place l i (min r (l.length + 1)) := by
  have hfront : (l.take (r - 1)).filter (· != i) = l.take (r - 1) := by
    rw [List.filter_eq_self]
    intro j hj
    rw [bne_iff_ne]
    rintro rfl
    exact hi (List.mem_of_mem_take hj)
  have hlength : (l.take (r - 1)).length = min r (l.length + 1) - 1 := by
    rw [List.length_take]
    omega
  rw [split_eq_insertIdx h, hfront, hlength, place]

theorem split_eq_moveTo (h : l.Nodup) (hi : i ∈ l) (r : Nat) :
    (l.take (r - 1)).filter (· != i) ++ i :: (l.drop (r - 1)).filter (· != i) =
      moveTo l i r := by
  have hlt : l.idxOf i < l.length := List.idxOf_lt_length_of_mem hi
  have hlength : ((l.take (r - 1)).filter (· != i)).length =
      (if r ≤ l.idxOf i + 1 then r else min (r - 1) l.length) - 1 := by
    rw [← (h.sublist (List.take_sublist _ _)).erase_eq_filter]
    by_cases hin : i ∈ l.take (r - 1)
    · have hidx := (List.mem_take_iff_idxOf_lt hi).1 hin
      rw [List.length_erase_of_mem hin, List.length_take, if_neg (by omega)]
    · have hidx : ¬ l.idxOf i < r - 1 := fun hlt => hin ((List.mem_take_iff_idxOf_lt hi).2 hlt)
      rw [List.erase_of_not_mem hin, List.length_take, if_pos (by omega)]
      omega
  rw [split_eq_insertIdx h, hlength, moveTo, if_pos hi, place]

theorem moveTo_idxOf (l : List InstanceNumber) (i : InstanceNumber) :
    moveTo l i (l.idxOf i + 1) = l := by
  unfold moveTo
  split_ifs with hi hle
  · have hlt : l.idxOf i < l.length := List.idxOf_lt_length_of_mem hi
    have hself := List.insertIdx_eraseIdx_getElem hlt
    rw [List.getElem_idxOf hlt] at hself
    rw [place, ← List.eraseIdx_idxOf_eq_erase, Nat.add_sub_cancel]
    exact hself
  · exact absurd (Nat.le_refl _) hle
  · rfl

section Filter

variable {p : InstanceNumber → Bool}

theorem filter_removed {q : InstanceNumber → Bool} (h : ∀ i, q i = true → p i = false)
    (l : List InstanceNumber) : (l.filter fun i => !q i).filter p = l.filter p := by
  rw [List.filter_filter]
  apply List.filter_congr
  intro i _
  cases hq : q i with
  | false => simp
  | true => simp [h i hq]

theorem filter_erase (h : p i = false) (l : List InstanceNumber) :
    (l.erase i).filter p = l.filter p := by
  rw [← List.erase_filter, List.erase_of_not_mem]
  simp [h]

theorem filter_insertIdx (h : p i = false) (l : List InstanceNumber) (k : Nat) :
    (l.insertIdx k i).filter p = l.filter p := by
  induction l generalizing k with
  | nil => cases k <;> simp [h]
  | cons j l ih =>
    cases k with
    | zero => simp [h]
    | succ k => simp only [List.insertIdx_succ_cons, List.filter_cons, ih]

theorem filter_place (h : p i = false) (l : List InstanceNumber) (k : Nat) :
    (place l i k).filter p = l.filter p := by
  rw [place, filter_insertIdx h, filter_erase h]

theorem filter_moveTo (h : p i = false) (l : List InstanceNumber) (r : Nat) :
    (moveTo l i r).filter p = l.filter p := by
  unfold moveTo
  split_ifs
  · exact filter_place h l _
  · exact filter_place h l _
  · rfl

end Filter

end Cwmp
