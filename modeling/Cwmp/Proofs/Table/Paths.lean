import Cwmp.Proofs.Entity.ParameterMap
import Cwmp.Proofs.Table.Rows
import Cwmp.Proofs.Text.CommaList
import Cwmp.Table.Basic

/-! # Paths of parameters

A table lists every parameter of every row under a path of its own: the path of the table, the
number of the row, a dot and the name. A number ends where the dot stands, so what is listed below
the path of a row belongs to the row, even if the digits of its number begin those of another.
-/
namespace Cwmp

namespace InstanceNumber

@[simp] theorem read_text (i : InstanceNumber) : read i.text = some i := by
  rw [read, text, Text.toList_decimal, Text.unsigned?_toDigits i.le_max, Option.bind_some,
    ofNat?_number]

theorem text_injective : Function.Injective text := by
  intro i j h
  have hread := congrArg read h
  rw [read_text, read_text] at hread
  exact Option.some.inj hread

theorem dot_not_mem_text (i : InstanceNumber) : '.' ∉ i.text.toList := by
  rw [text, Text.toList_decimal]
  intro h
  have hdigit := Text.isDigit_of_mem_toDigits h
  cases hdigit

theorem eq_of_text_append_dot {i j : InstanceNumber} {s t : List Char}
    (h : i.text.toList ++ '.' :: s = j.text.toList ++ '.' :: t) : i = j ∧ s = t := by
  have hcut := congrArg (Text.splitAt '.') h
  rw [Text.splitAt_append_cons i.dot_not_mem_text, Text.splitAt_append_cons j.dot_not_mem_text]
    at hcut
  have htext : i.text = j.text := String.toList_inj.1 (List.cons.inj hcut).1
  obtain rfl := text_injective htext
  exact ⟨rfl, by simpa using h⟩

end InstanceNumber

namespace Table

def rowPath (path : String) (i : InstanceNumber) : String :=
  path ++ i.text ++ "."

section Below

variable {path s t : String} {i j : InstanceNumber}

theorem toList_rowPath_append : (rowPath path i ++ s).toList =
    path.toList ++ (i.text.toList ++ '.' :: s.toList) := by
  simp [rowPath]

theorem rowPath_append_inj : rowPath path i ++ s = rowPath path j ++ t ↔ i = j ∧ s = t := by
  constructor
  · intro h
    have hlist := congrArg String.toList h
    rw [toList_rowPath_append, toList_rowPath_append, List.append_cancel_left_eq] at hlist
    obtain ⟨hij, hst⟩ := InstanceNumber.eq_of_text_append_dot hlist
    exact ⟨hij, String.toList_inj.1 hst⟩
  · rintro ⟨rfl, rfl⟩
    rfl

theorem isPrefixOf_rowPath_iff :
    (rowPath path i).toList.isPrefixOf (rowPath path j ++ s).toList = true ↔ i = j := by
  rw [List.isPrefixOf_iff_prefix]
  constructor
  · rintro ⟨rest, hrest⟩
    have happend : rowPath path i ++ String.ofList rest = rowPath path j ++ s := by
      apply String.toList_inj.1
      rw [← hrest]
      simp
    exact (rowPath_append_inj.1 happend).1
  · rintro rfl
    simp

end Below

variable {E : Type} [Entity E]

/-- What a table lists of a row: every parameter under its path, with the text that a reader gets of
it. -/
def rowListing (path : String) (i : InstanceNumber) (row : E) : List (String × Option String) :=
  (Entity.fields E).map fun f =>
    (rowPath path i ++ f.name, (Entity.read? row f.name).map Value.write)

def below (path : String) (i : InstanceNumber) (parameters : List (String × String)) :
    List (String × String) :=
  parameters.filter fun (p, _) => (rowPath path i).toList.isPrefixOf p.toList

/-- What a table lists under a path, and what of it belongs to a row. -/
structure PathsExact (t : Table E) (path : String) : Prop where
  listed : (t.parameters path).map (Prod.map id some) =
    t.rows.entries.flatMap fun (i, row) => rowListing path i row
  distinct : (t.names path).Nodup
  row_listed : ∀ i row, t.get? i = some row →
    (below path i (t.parameters path)).map (Prod.map id some) = rowListing path i row
  nothing_listed : ∀ i, t.get? i = none → below path i (t.parameters path) = []

def rowParameters (path : String) (i : InstanceNumber) (row : E) : List (String × String) :=
  (Entity.texts row).map fun (name, text) => (rowPath path i ++ name, text)

theorem parameters_eq (t : Table E) (path : String) : t.parameters path =
    t.rows.entries.flatMap fun (i, row) => rowParameters path i row :=
  rfl

section Rows

variable {path : String} {i : InstanceNumber}

theorem exists_name_of_mem {j : InstanceNumber} {row : E} {p text : String}
    (h : (p, text) ∈ rowParameters path j row) : ∃ name, rowPath path j ++ name = p := by
  obtain ⟨⟨name, _⟩, -, heq⟩ := List.mem_map.1 h
  exact ⟨name, congrArg Prod.fst heq⟩

theorem below_rowParameters (j : InstanceNumber) (row : E) :
    below path i (rowParameters path j row) =
      if j = i then rowParameters path j row else [] := by
  split_ifs with hji
  · rw [below, List.filter_eq_self]
    rintro ⟨p, text⟩ hp
    obtain ⟨name, rfl⟩ := exists_name_of_mem hp
    exact isPrefixOf_rowPath_iff.2 hji.symm
  · rw [below, List.filter_eq_nil_iff]
    rintro ⟨p, text⟩ hp hprefix
    obtain ⟨name, rfl⟩ := exists_name_of_mem hp
    exact hji (isPrefixOf_rowPath_iff.1 hprefix).symm

theorem below_flatMap (entries : List (InstanceNumber × E)) :
    below path i (entries.flatMap fun (j, row) => rowParameters path j row) =
      (entries.filter fun e => e.1 == i).flatMap fun (j, row) => rowParameters path j row := by
  induction entries with
  | nil => rfl
  | cons e entries ih =>
    obtain ⟨j, row⟩ := e
    have hhead : below path i (rowParameters path j row) = _ := below_rowParameters j row
    simp only [below] at hhead ih ⊢
    rw [List.flatMap_cons, List.filter_append, hhead, ih]
    by_cases hji : j = i <;> simp [hji]

theorem below_parameters (t : Table E) : below path i (t.parameters path) =
    (t.get? i).toList.flatMap (rowParameters path i) := by
  rw [parameters_eq, below_flatMap, Rows.filter_entries, List.flatMap_map]
  rfl

variable [BEq E] [Regular E]

theorem texts_map_some (row : E) : (Entity.texts row).map (Prod.map id some) =
    (Entity.fields E).map fun f => (f.name, (Entity.read? row f.name).map Value.write) := by
  rw [← Record.map_fst_values (Entity.record row), Entity.texts, List.map_map, List.map_map]
  apply List.map_congr_left
  rintro ⟨f, v⟩ hv
  have hget : Entity.get? row f.name = some v :=
    Record.get?_of_mem_values (Entity.nodup_fieldNames E) hv
  simp [Entity.read?, Entity.field?_name (Record.exists_value_eq hv).1, hget]

variable (path i) in
theorem rowParameters_map_some (row : E) :
    (rowParameters path i row).map (Prod.map id some) = rowListing path i row := by
  have hmap := congrArg (List.map (Prod.map (rowPath path i ++ ·) id)) (texts_map_some row)
  rw [List.map_map, List.map_map] at hmap
  rw [rowParameters, List.map_map]
  exact hmap

theorem nodup_rowParameters (row : E) : ((rowParameters path i row).map Prod.fst).Nodup := by
  have hnames : (rowParameters path i row).map Prod.fst =
      ((Entity.texts row).map Prod.fst).map (rowPath path i ++ ·) := by
    rw [rowParameters, List.map_map, List.map_map]
    rfl
  rw [hnames, Entity.names_texts]
  exact (Entity.nodup_fieldNames E).map fun _ _ h => (rowPath_append_inj.1 h).2

end Rows

theorem pathsExact [BEq E] [Regular E] (t : Table E) (path : String) : t.PathsExact path where
  listed := by
    rw [parameters_eq, List.map_flatMap]
    exact List.flatMap_congr fun e _ => rowParameters_map_some path e.1 e.2
  distinct := by
    rw [names, parameters_eq, List.map_flatMap, List.nodup_flatMap]
    refine ⟨fun e _ => nodup_rowParameters e.2, ?_⟩
    refine (List.pairwise_map.1 t.rows.nodup).imp fun {a b} hab p ha hb => hab ?_
    obtain ⟨⟨p, text⟩, hp, rfl⟩ := List.mem_map.1 ha
    obtain ⟨⟨p', text'⟩, hp', rfl⟩ := List.mem_map.1 hb
    obtain ⟨name, hname⟩ := exists_name_of_mem hp
    obtain ⟨name', hname'⟩ := exists_name_of_mem hp'
    exact (rowPath_append_inj.1 (hname.trans hname'.symm)).1
  row_listed i row hrow := by
    rw [below_parameters, hrow, Option.toList_some, List.flatMap_singleton,
      rowParameters_map_some]
  nothing_listed i hnone := by
    rw [below_parameters, hnone]
    rfl

end Table
end Cwmp
