import Cwmp.Table.Rows
import Mathlib.Data.List.Nodup

/-! # Rows as a finite map

Looking a row up by its number agrees with finding it among the entries. Each operation on rows is
described by the entries that it leaves.
-/
namespace Cwmp.Rows

variable {E : Type}

theorem eq_of_mem (r : Rows E) {i : InstanceNumber} {a b : E}
    (ha : (i, a) ∈ r.entries) (hb : (i, b) ∈ r.entries) : a = b := by
  have h := List.inj_on_of_nodup_map r.nodup ha hb rfl
  exact (Prod.mk.inj h).2

theorem nodup_instances (r : Rows E) : r.instances.Nodup :=
  r.nodup

theorem get?_eq_some_iff {r : Rows E} {i : InstanceNumber} {row : E} :
    r.get? i = some row ↔ (i, row) ∈ r.entries := by
  constructor
  · intro h
    obtain ⟨⟨j, other⟩, hfind, rfl⟩ := Option.map_eq_some_iff.1 h
    have hj : j = i := by simpa using List.find?_some hfind
    exact hj ▸ List.mem_of_find?_eq_some hfind
  · intro h
    have hsome : (r.entries.find? fun p => p.1 == i).isSome := by
      rw [List.find?_isSome]
      exact ⟨(i, row), h, by simp⟩
    obtain ⟨⟨j, other⟩, hfind⟩ := Option.isSome_iff_exists.1 hsome
    have hj : j = i := by simpa using List.find?_some hfind
    subst hj
    have he : other = row := r.eq_of_mem (List.mem_of_find?_eq_some hfind) h
    simp [get?, hfind, he]

/-- The row with a number is the only entry with it. -/
theorem filter_entries (r : Rows E) (i : InstanceNumber) :
    r.entries.filter (fun e => e.1 == i) = (r.get? i).toList.map (Prod.mk i) := by
  have hfilter : ∀ entries : List (InstanceNumber × E), (entries.map Prod.fst).Nodup →
      entries.filter (fun e => e.1 == i) =
        ((entries.find? fun e => e.1 == i).map Prod.snd).toList.map (Prod.mk i) := by
    intro entries hnodup
    induction entries with
    | nil => rfl
    | cons e entries ih =>
      obtain ⟨j, row⟩ := e
      rw [List.map_cons, List.nodup_cons] at hnodup
      by_cases hji : j = i
      · subst hji
        have hrest : entries.filter (fun e => e.1 == j) = [] := by
          rw [List.filter_eq_nil_iff]
          rintro e he heq
          exact hnodup.1 (List.mem_map.2 ⟨e, he, by simpa using heq⟩)
        simp [hrest]
      · simp [hji, ih hnodup.2]
  exact hfilter r.entries r.nodup

theorem mem_instances_iff {r : Rows E} {i : InstanceNumber} :
    i ∈ r.instances ↔ ∃ row, (i, row) ∈ r.entries := by
  simp [instances]

theorem mem_entries_map {r : Rows E} {f : InstanceNumber → E → E} {i : InstanceNumber} {row : E} :
    (i, row) ∈ (r.map f).entries ↔ ∃ old, (i, old) ∈ r.entries ∧ f i old = row := by
  simp only [map, List.mem_map, Prod.mk.injEq, Prod.exists]
  constructor
  · rintro ⟨j, old, hmem, rfl, rfl⟩
    exact ⟨old, hmem, rfl⟩
  · rintro ⟨old, hmem, rfl⟩
    exact ⟨i, old, hmem, rfl, rfl⟩

theorem map_congr {r : Rows E} {f g : InstanceNumber → E → E}
    (h : ∀ i row, (i, row) ∈ r.entries → f i row = g i row) : r.map f = r.map g := by
  simp only [map, mk.injEq]
  apply List.map_congr_left
  rintro ⟨i, row⟩ hmem
  rw [h i row hmem]

theorem mem_entries_replace {r : Rows E} {i j : InstanceNumber} {row other : E}
    (hi : i ∈ r.instances) : (j, other) ∈ (r.replace i row).entries ↔
      (j = i ∧ other = row) ∨ (j ≠ i ∧ (j, other) ∈ r.entries) := by
  obtain ⟨old, hold⟩ := mem_instances_iff.1 hi
  rw [replace, mem_entries_map]
  by_cases hj : j = i
  · subst hj
    simp only [↓reduceIte, true_and, ne_eq, not_true_eq_false, false_and, or_false]
    constructor
    · rintro ⟨_, -, rfl⟩
      rfl
    · rintro rfl
      exact ⟨old, hold, rfl⟩
  · simp [hj]

theorem mem_entries_insert {r : Rows E} {i j : InstanceNumber} {row other : E} :
    (j, other) ∈ (r.insert i row).entries ↔
      (j = i ∧ other = row) ∨ (j ≠ i ∧ (j, other) ∈ r.entries) := by
  unfold insert
  split_ifs with hi
  · exact mem_entries_replace hi
  · have hne : (j, other) ∈ r.entries → j ≠ i := by
      rintro hmem rfl
      exact hi (mem_instances_iff.2 ⟨other, hmem⟩)
    simp only [List.mem_append, List.mem_singleton, Prod.mk.injEq]
    tauto

theorem mem_entries_erase {r : Rows E} {i j : InstanceNumber} {other : E} :
    (j, other) ∈ (r.erase i).entries ↔ j ≠ i ∧ (j, other) ∈ r.entries := by
  simp [erase, and_comm]

theorem mem_instances_erase {r : Rows E} {i j : InstanceNumber} :
    j ∈ (r.erase i).instances ↔ j ≠ i ∧ j ∈ r.instances := by
  rw [instances_erase, List.mem_filter, bne_iff_ne, and_comm]

theorem mem_instances_insert {r : Rows E} {i j : InstanceNumber} {row : E} :
    j ∈ (r.insert i row).instances ↔ j = i ∨ j ∈ r.instances := by
  simp only [mem_instances_iff, mem_entries_insert]
  by_cases hj : j = i <;> simp [hj]

theorem mem_others_some {r : Rows E} {i : InstanceNumber} {other : E} :
    other ∈ r.others (some i) ↔ ∃ j, j ≠ i ∧ (j, other) ∈ r.entries := by
  simp [others, and_comm]

theorem mem_others_none {r : Rows E} {other : E} :
    other ∈ r.others none ↔ ∃ j, (j, other) ∈ r.entries := by
  simp [others]

theorem length_others_le (r : Rows E) (i : Option InstanceNumber) :
    (r.others i).length ≤ r.size := by
  rw [others, List.length_map]
  exact List.length_filter_le _ _

theorem entries_insert {r : Rows E} {i : InstanceNumber} {row : E} (h : i ∉ r.instances) :
    (r.insert i row).entries = r.entries ++ [(i, row)] := by
  simp only [insert, dif_neg h]

theorem nodup_entries (r : Rows E) : r.entries.Nodup :=
  r.nodup.of_map Prod.fst

theorem entries_replace_perm {r : Rows E} {i : InstanceNumber} {row : E} (h : i ∈ r.instances) :
    (r.replace i row).entries.Perm ((i, row) :: r.entries.filter (·.1 != i)) := by
  rw [List.perm_ext_iff_of_nodup (r.replace i row).nodup_entries]
  · rintro ⟨j, other⟩
    rw [mem_entries_replace h]
    simp [and_comm]
  · rw [List.nodup_cons]
    exact ⟨by simp, r.nodup_entries.filter _⟩

theorem filter_entries_of_not_mem {r : Rows E} {i : InstanceNumber} (h : i ∉ r.instances) :
    r.entries.filter (·.1 != i) = r.entries := by
  rw [List.filter_eq_self]
  rintro ⟨j, other⟩ hmem
  rw [bne_iff_ne]
  rintro rfl
  exact h (mem_instances_iff.2 ⟨other, hmem⟩)

end Cwmp.Rows
