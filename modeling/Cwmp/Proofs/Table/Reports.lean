import Cwmp.ObjectKind
import Cwmp.Proofs.Table.Violations

/-! # Reports of violations

A table is reported on row by row. A row is to blame for its alias, if that is malformed or belongs
to another row too, and for all parameters of a key on which another enabled row agrees with it. The
report names every such parameter once, and nothing else. Both rules are symmetric, so of rows that
clash none is left out.
-/
namespace Cwmp

variable {E : Type} [Entity E]

/-- Two rows may not both be there, as they are enabled and agree on all parameters of a key. -/
def Agree (key : List String) (a b : E) : Prop :=
  Entity.isEnabled a = true ∧ Entity.isEnabled b = true ∧
    ∀ p ∈ key, Entity.get? a p = Entity.get? b p

theorem Agree.symm {key : List String} {a b : E} (h : Agree key a b) : Agree key b a :=
  ⟨h.2.1, h.1, fun p hp => (h.2.2 p hp).symm⟩

namespace Table

section Blame

variable (t : Table E) (i : InstanceNumber) (row : E)

/-- The alias of a row is malformed, or another row has it too. -/
def AliasBad : Prop :=
  ∃ s, Entity.alias? row = some s ∧ (¬Alias.IsValid s ∨
    ∃ j other, j ≠ i ∧ t.get? j = some other ∧ Entity.alias? other = some s)

def KeyTaken (key : List String) : Prop :=
  ∃ j other, j ≠ i ∧ t.get? j = some other ∧ Agree key row other

def sharedFaults : List ParameterFault :=
  rowFaults (t.rows.others (some i)) row []

end Blame

variable {t : Table E} {i j : InstanceNumber} {row other : E} {key : List String}

omit [Entity E] in
theorem exists_others_iff {P : E → Prop} : (∃ other ∈ t.rows.others (some i), P other) ↔
    ∃ j other, j ≠ i ∧ t.get? j = some other ∧ P other := by
  constructor
  · rintro ⟨other, hmem, hother⟩
    obtain ⟨j, hj, hentry⟩ := Rows.mem_others_some.1 hmem
    exact ⟨j, other, hj, Rows.get?_eq_some_iff.2 hentry, hother⟩
  · rintro ⟨j, other, hj, hget, hother⟩
    exact ⟨other, Rows.mem_others_some.2 ⟨j, hj, Rows.get?_eq_some_iff.1 hget⟩, hother⟩

theorem aliasFaults_ne_nil_iff :
    aliasFaults (t.rows.others (some i)) row ≠ [] ↔ t.AliasBad i row := by
  rw [ne_eq, aliasFaults_eq_nil_iff, AliasBad]
  push Not
  refine exists_congr fun s => and_congr_right fun _ => ?_
  rw [← exists_others_iff, ← aliasTaken_iff]
  by_cases hvalid : Alias.IsValid s <;> simp [hvalid]

theorem clashes_others_iff :
    clashes (t.rows.others (some i)) row key = true ↔ t.KeyTaken i row key := by
  rw [clashes_iff]
  exact exists_others_iff

instance : Decidable (t.AliasBad i row) :=
  decidable_of_iff _ aliasFaults_ne_nil_iff

instance : Decidable (t.KeyTaken i row key) :=
  decidable_of_iff _ clashes_others_iff

variable (t i row) in
def blamed : List String :=
  (if t.AliasBad i row then [Entity.aliasName] else []) ++
    (Entity.uniqueKeys E).flatMap fun key => if t.KeyTaken i row key then key else []

theorem parameters_aliasFaults :
    (aliasFaults (t.rows.others (some i)) row).map (·.parameter) =
      if t.AliasBad i row then [Entity.aliasName] else [] := by
  have hsome : aliasFaults (t.rows.others (some i)) row = [] ∨
      (aliasFaults (t.rows.others (some i)) row).map (·.parameter) = [Entity.aliasName] := by
    unfold aliasFaults
    split
    · exact .inl rfl
    · split
      · exact .inr rfl
      · split_ifs
        · exact .inr rfl
        · exact .inl rfl
  split_ifs with hbad
  · exact hsome.resolve_left (aliasFaults_ne_nil_iff.2 hbad)
  · have hnil := not_ne_iff.1 fun hne => hbad (aliasFaults_ne_nil_iff.1 hne)
    rw [hnil, List.map_nil]

theorem parameters_keyFaults :
    (keyFaults (t.rows.others (some i)) row [] key).map (·.parameter) =
      if t.KeyTaken i row key then key else [] := by
  simp only [keyFaults, clashes_others_iff]
  split_ifs with htaken hnone
  · rw [List.map_map]
    exact List.map_id key
  · simp at hnone
  · rfl

theorem parameters_sharedFaults :
    (t.sharedFaults i row).map (·.parameter) = t.blamed i row := by
  simp only [sharedFaults, rowFaults, List.map_append, List.map_flatMap, parameters_aliasFaults,
    parameters_keyFaults, blamed]

theorem code_sharedFaults {fault : ParameterFault} (h : fault ∈ t.sharedFaults i row) :
    fault.code = .invalidParameterValue := by
  rcases List.mem_append.1 h with halias | hkey
  · unfold aliasFaults at halias
    grind
  · obtain ⟨key, -, hfault⟩ := List.mem_flatMap.1 hkey
    unfold keyFaults at hfault
    grind

theorem mem_violations_iff {faults : List ParameterFault} : (i, faults) ∈ t.violations ↔
    ∃ row, t.get? i = some row ∧ t.sharedFaults i row = faults ∧ faults ≠ [] := by
  simp only [violations, List.mem_filterMap, Prod.exists, get?, Rows.get?_eq_some_iff]
  constructor
  · rintro ⟨j, row, hmem, hfaults⟩
    split_ifs at hfaults with hnil
    cases hfaults
    exact ⟨row, hmem, rfl, hnil⟩
  · rintro ⟨row, hmem, rfl, hne⟩
    exact ⟨i, row, hmem, if_neg hne⟩

theorem violations_eq : t.violations =
    (t.rows.entries.map fun e => (e.1, t.sharedFaults e.1 e.2)).filter fun v => !v.2.isEmpty := by
  rw [← List.filterMap_eq_filter, List.filterMap_map]
  refine List.filterMap_congr fun e _ => ?_
  change (if t.sharedFaults e.1 e.2 = [] then none else some (e.1, t.sharedFaults e.1 e.2)) = _
  by_cases hnil : t.sharedFaults e.1 e.2 = [] <;> simp [hnil, Option.guard]

theorem parameters_violations :
    (t.violations.map fun v => (v.1, v.2.map ParameterFault.parameter)) =
      (t.rows.entries.map fun e => (e.1, t.blamed e.1 e.2)).filter fun b => !b.2.isEmpty := by
  simp only [violations_eq, List.filter_map, List.map_map, Function.comp_def,
    ← parameters_sharedFaults, List.isEmpty_map]

def Blames (t : Table E) (i : InstanceNumber) (p : String) : Prop :=
  ∃ faults, (i, faults) ∈ t.violations ∧ p ∈ faults.map (·.parameter)

theorem blames_iff {p : String} : t.Blames i p ↔
    ∃ row : E, t.get? i = some row ∧ p ∈ t.blamed i row := by
  simp only [Blames, mem_violations_iff]
  constructor
  · rintro ⟨_, ⟨row, hrow, rfl, -⟩, hp⟩
    rw [parameters_sharedFaults] at hp
    exact ⟨row, hrow, hp⟩
  · rintro ⟨row, hrow, hp⟩
    rw [← parameters_sharedFaults] at hp
    refine ⟨_, ⟨row, hrow, rfl, fun hnil => ?_⟩, hp⟩
    rw [hnil] at hp
    cases hp

theorem mem_blamed_iff {p : String} : p ∈ t.blamed i row ↔
    (p = Entity.aliasName ∧ t.AliasBad i row) ∨
      ∃ key ∈ Entity.uniqueKeys E, p ∈ key ∧ t.KeyTaken i row key := by
  simp only [blamed, List.mem_append, List.mem_flatMap]
  refine or_congr ?_ (exists_congr fun key => and_congr_right fun _ => ?_)
  · split_ifs with hbad <;> simp [hbad]
  · split_ifs with htaken <;> simp [htaken]

variable (E) in
/-- No parameter is subject to two rules, be it the alias or a parameter of a key. -/
def RulesApart : Prop :=
  (Entity.aliasName :: (Entity.uniqueKeys E).flatten).Nodup

instance : Decidable (RulesApart E) :=
  inferInstanceAs (Decidable (List.Nodup _))

theorem RulesApart.key_eq (h : RulesApart E) {key key' : List String}
    (hkey : key ∈ Entity.uniqueKeys E) (hkey' : key' ∈ Entity.uniqueKeys E) {p : String}
    (hp : p ∈ key) (hp' : p ∈ key') : key = key' := by
  by_contra hne
  have hsymm : Std.Symm (@List.Disjoint String) := ⟨fun _ _ => List.Disjoint.symm⟩
  have hdisjoint := (List.nodup_flatten.1 (List.nodup_cons.1 h).2).2
  exact hdisjoint.forall hkey hkey' hne hp hp'

theorem RulesApart.ne_aliasName (h : RulesApart E) {key : List String}
    (hkey : key ∈ Entity.uniqueKeys E) {p : String} (hp : p ∈ key) : p ≠ Entity.aliasName := by
  rintro rfl
  exact (List.nodup_cons.1 h).1 (List.mem_flatten.2 ⟨key, hkey, hp⟩)

variable (t i row) in
theorem blamed_sublist :
    (t.blamed i row).Sublist (Entity.aliasName :: (Entity.uniqueKeys E).flatten) := by
  have hkeys : ∀ keys : List (List String),
      (keys.flatMap fun key => if t.KeyTaken i row key then key else []).Sublist keys.flatten := by
    intro keys
    induction keys with
    | nil => exact List.Sublist.slnil
    | cons key keys ih =>
      rw [List.flatMap_cons, List.flatten_cons]
      refine List.Sublist.append ?_ ih
      split_ifs
      · exact List.Sublist.refl key
      · exact List.nil_sublist key
  rw [← List.singleton_append]
  refine List.Sublist.append ?_ (hkeys _)
  split_ifs
  · exact List.Sublist.refl _
  · exact List.nil_sublist _

/-- The report on a table names the rows that break a rule, and what they are to blame for. -/
structure ReportExact (t : Table E) : Prop where
  /-- The rows are named in their order. -/
  parameters_eq : (t.violations.map fun v => (v.1, v.2.map ParameterFault.parameter)) =
    (t.rows.entries.map fun e => (e.1, t.blamed e.1 e.2)).filter fun b => !b.2.isEmpty
  code_eq : ∀ v ∈ t.violations, ∀ fault ∈ v.2, fault.code = .invalidParameterValue
  /-- However many rows a row clashes with, it is blamed once for each parameter. -/
  nodup : ∀ v ∈ t.violations, (v.2.map ParameterFault.parameter).Nodup
  alias_iff : ∀ i, t.Blames i Entity.aliasName ↔ ∃ row, t.get? i = some row ∧ t.AliasBad i row
  key_iff : ∀ key ∈ Entity.uniqueKeys E, ∀ p ∈ key, ∀ i,
    t.Blames i p ↔ ∃ row, t.get? i = some row ∧ t.KeyTaken i row key
  /-- Of two rows with one alias both are reported. -/
  alias_clash : ∀ {i j row other s}, i ≠ j → t.get? i = some row → t.get? j = some other →
    Entity.alias? row = some s → Entity.alias? other = some s →
    t.Blames i Entity.aliasName ∧ t.Blames j Entity.aliasName
  /-- So they are of two rows that agree on a key. -/
  key_clash : ∀ {i j row other}, i ≠ j → t.get? i = some row → t.get? j = some other →
    ∀ key ∈ Entity.uniqueKeys E, Agree key row other →
    ∀ p ∈ key, t.Blames i p ∧ t.Blames j p

variable (t) in
theorem RulesApart.reportExact (h : RulesApart E) : t.ReportExact := by
  have halias : ∀ i, t.Blames i Entity.aliasName ↔
      ∃ row, t.get? i = some row ∧ t.AliasBad i row := by
    intro i
    rw [blames_iff]
    refine exists_congr fun row => and_congr_right fun _ => ?_
    rw [mem_blamed_iff]
    constructor
    · rintro (⟨-, hbad⟩ | ⟨key, hkey, hp, -⟩)
      · exact hbad
      · exact absurd rfl (h.ne_aliasName hkey hp)
    · exact fun hbad => .inl ⟨rfl, hbad⟩
  have hkeys : ∀ key ∈ Entity.uniqueKeys E, ∀ p ∈ key, ∀ i,
      t.Blames i p ↔ ∃ row, t.get? i = some row ∧ t.KeyTaken i row key := by
    intro key hkey p hp i
    rw [blames_iff]
    refine exists_congr fun row => and_congr_right fun _ => ?_
    rw [mem_blamed_iff]
    constructor
    · rintro (⟨heq, -⟩ | ⟨key', hkey', hp', htaken⟩)
      · exact absurd heq (h.ne_aliasName hkey hp)
      · rwa [h.key_eq hkey hkey' hp hp']
    · exact fun htaken => .inr ⟨key, hkey, hp, htaken⟩
  refine ⟨parameters_violations, ?_, ?_, halias, hkeys, ?_, ?_⟩
  · rintro ⟨i, faults⟩ hv fault hfault
    obtain ⟨row, -, rfl, -⟩ := mem_violations_iff.1 hv
    exact code_sharedFaults hfault
  · rintro ⟨i, faults⟩ hv
    obtain ⟨row, -, rfl, -⟩ := mem_violations_iff.1 hv
    dsimp only
    rw [parameters_sharedFaults]
    exact (blamed_sublist t i row).nodup h
  · intro i j row other s hij hrow hother hs hs'
    exact ⟨(halias i).2 ⟨row, hrow, s, hs, .inr ⟨j, other, hij.symm, hother, hs'⟩⟩,
      (halias j).2 ⟨other, hother, s, hs', .inr ⟨i, row, hij, hrow, hs⟩⟩⟩
  · intro i j row other hij hrow hother key hkey hagree p hp
    exact ⟨(hkeys key hkey p hp i).2 ⟨row, hrow, j, other, hij.symm, hother, hagree⟩,
      (hkeys key hkey p hp j).2 ⟨other, hother, i, row, hij, hrow, hagree.symm⟩⟩

theorem Consistent.reported_eq_nil (h : t.Consistent) : t.reported = [] := by
  refine List.eq_nil_iff_forall_not_mem.2 fun i hi => ?_
  obtain ⟨row, hrow, hbad⟩ := mem_reported_iff.1 hi
  have hget : t.get? i = some row := Rows.get?_eq_some_iff.2 hrow
  refine hbad ⟨fun s hs => h.aliases_valid i row s hget hs, fun other hother hconflict => ?_⟩
  obtain ⟨j, hj, hentry⟩ := Rows.mem_others_some.1 hother
  have hget' : t.get? j = some other := Rows.get?_eq_some_iff.2 hentry
  rcases hconflict with ⟨s, hs, hs'⟩ | ⟨henabled, henabled', key, hkey, hall⟩
  · exact hj (h.aliases_distinct i j row other s hget hget' hs hs').symm
  · obtain ⟨p, hp, hne⟩ :=
      h.keys_distinct i j row other hget hget' hj.symm henabled henabled' key hkey
    exact hne (hall p hp)

theorem reported_eq_nil_iff : t.reported = [] ↔ t.Consistent :=
  ⟨consistent_of_reported, Consistent.reported_eq_nil⟩

end Table

theorem ObjectKind.rulesApart (kind : ObjectKind) : Table.RulesApart kind.collection.Row := by
  cases kind <;> decide

end Cwmp
