import Cwmp.Proofs.Table.Reranked

/-! # Violations of the rules between rows

A loaded table may break the rules between rows. No operation makes a row break one that did not:
the row that is written is checked against all others, and of two rows that do not go together
neither is better off than the other.
-/
namespace Cwmp

variable {E : Type} [Entity E]

/-- Two rows do not go together: they have one alias, or both are enabled and agree on a key. -/
def Conflict (a b : E) : Prop :=
  (∃ s, Entity.alias? a = some s ∧ Entity.alias? b = some s) ∨
    (Entity.isEnabled a = true ∧ Entity.isEnabled b = true ∧
      ∃ key ∈ Entity.uniqueKeys E, ∀ p ∈ key, Entity.get? a p = Entity.get? b p)

theorem Conflict.symm {a b : E} (h : Conflict a b) : Conflict b a := by
  rcases h with ⟨s, ha, hb⟩ | ⟨ha, hb, key, hkey, heq⟩
  · exact Or.inl ⟨s, hb, ha⟩
  · exact Or.inr ⟨hb, ha, key, hkey, fun p hp => (heq p hp).symm⟩

def AliasValid (row : E) : Prop :=
  ∀ s, Entity.alias? row = some s → Alias.IsValid s

def Obeys (others : List E) (row : E) : Prop :=
  AliasValid row ∧ ∀ other ∈ others, ¬ Conflict row other

namespace Table

theorem aliasTaken_iff {others : List E} {s : String} :
    aliasTaken others s = true ↔ ∃ other ∈ others, Entity.alias? other = some s := by
  simp [aliasTaken]

theorem clashes_iff {others : List E} {row : E} {key : List String} :
    clashes others row key = true ↔ ∃ other ∈ others, Entity.isEnabled row = true ∧
      Entity.isEnabled other = true ∧ ∀ p ∈ key, Entity.get? row p = Entity.get? other p := by
  simp only [clashes, Bool.and_eq_true, List.any_eq_true, List.all_eq_true, beq_iff_eq]
  constructor
  · rintro ⟨hrow, other, hmem, hother, heq⟩
    exact ⟨other, hmem, hrow, hother, heq⟩
  · rintro ⟨other, hmem, hrow, hother, heq⟩
    exact ⟨hrow, other, hmem, hother, heq⟩

theorem clashes_congr (others : List E) {row row' : E} {key : List String}
    (henabled : Entity.isEnabled row' = Entity.isEnabled row)
    (hget : ∀ p ∈ key, Entity.get? row' p = Entity.get? row p) :
    clashes others row' key = clashes others row key := by
  rw [Bool.eq_iff_iff, clashes_iff, clashes_iff, henabled]
  refine exists_congr fun other => and_congr_right fun _ => and_congr_right fun _ =>
    and_congr_right fun _ => forall₂_congr fun p hp => ?_
  rw [hget p hp]

/-- The two rules apart. -/
theorem obeys_iff {others : List E} {row : E} : Obeys others row ↔
    (∀ s, Entity.alias? row = some s →
      Alias.IsValid s ∧ aliasTaken others s = false) ∧
      ∀ key ∈ Entity.uniqueKeys E, clashes others row key = false := by
  simp only [Obeys, AliasValid, ← Bool.not_eq_true, aliasTaken_iff, clashes_iff]
  constructor
  · rintro ⟨hvalid, hconflict⟩
    refine ⟨fun s hs => ⟨hvalid s hs, ?_⟩, ?_⟩
    · rintro ⟨other, hmem, hother⟩
      exact hconflict other hmem (Or.inl ⟨s, hs, hother⟩)
    · rintro key hkey ⟨other, hmem, hrow, hother, heq⟩
      exact hconflict other hmem (Or.inr ⟨hrow, hother, key, hkey, heq⟩)
  · rintro ⟨halias, hkeys⟩
    refine ⟨fun s hs => (halias s hs).1, ?_⟩
    rintro other hmem (⟨s, hs, hother⟩ | ⟨hrow, hother, key, hkey, heq⟩)
    · exact (halias s hs).2 ⟨other, hmem, hother⟩
    · exact hkeys key hkey ⟨other, hmem, hrow, hother, heq⟩

theorem aliasFaults_eq_nil_iff {others : List E} {row : E} : aliasFaults others row = [] ↔
    ∀ s, Entity.alias? row = some s →
      Alias.IsValid s ∧ aliasTaken others s = false := by
  unfold aliasFaults
  cases Entity.alias? row with
  | none => simp
  | some s =>
    simp only [Option.some.injEq, forall_eq', Alias.check, Alias.IsValid]
    cases Alias.flaw? s with
    | none => simp
    | some flaw => simp

theorem keyFaults_eq_nil_iff {others : List E} {row : E} {requested key : List String}
    (hkey : key ∈ Entity.uniqueKeys E) :
    keyFaults others row requested key = [] ↔ clashes others row key = false := by
  unfold keyFaults
  cases clashes others row key with
  | false => simp
  | true =>
    simp only [↓reduceIte, List.map_eq_nil_iff, Bool.true_eq_false, iff_false]
    split_ifs with htouched
    · exact Entity.ne_nil_of_mem_uniqueKeys hkey
    · exact htouched

theorem rowFaults_eq_nil_iff {others : List E} {row : E} (requested : List String) :
    rowFaults others row requested = [] ↔ Obeys others row := by
  rw [obeys_iff, rowFaults, List.append_eq_nil_iff, List.flatMap_eq_nil_iff,
    aliasFaults_eq_nil_iff]
  apply and_congr Iff.rfl
  exact forall₂_congr fun key hkey => keyFaults_eq_nil_iff hkey

theorem rowError?_eq_none_iff {others : List E} {row : E} :
    rowError? others row = none ↔ Obeys others row := by
  have hclash : ((Entity.uniqueKeys E).find? (clashes others row)).map
      (ModelError.uniqueConstraint (Entity.pathText E)) = none ↔
      ∀ key ∈ Entity.uniqueKeys E, clashes others row key = false := by
    simp
  rw [obeys_iff, rowError?, ← hclash]
  cases Entity.alias? row with
  | none => simp
  | some s =>
    simp only [Option.some.injEq, forall_eq', Alias.check, Alias.IsValid]
    cases Alias.flaw? s with
    | none => cases aliasTaken others s <;> simp
    | some flaw => simp

def reported (t : Table E) : List InstanceNumber :=
  t.violations.map Prod.fst

variable {t t' : Table E} {i : InstanceNumber}

theorem mem_reported_iff : i ∈ t.reported ↔
    ∃ row, (i, row) ∈ t.rows.entries ∧ ¬ Obeys (t.rows.others (some i)) row := by
  simp only [reported, violations, List.mem_map, List.mem_filterMap, Prod.exists,
    ← rowFaults_eq_nil_iff []]
  constructor
  · rintro ⟨j, faults, ⟨k, row, hmem, hfaults⟩, rfl⟩
    split_ifs at hfaults with hnil
    cases hfaults
    exact ⟨row, hmem, hnil⟩
  · rintro ⟨row, hmem, hnil⟩
    exact ⟨i, _, ⟨i, row, hmem, if_neg hnil⟩, rfl⟩

theorem not_mem_reported_iff {row : E} (hrow : (i, row) ∈ t.rows.entries) :
    i ∉ t.reported ↔ Obeys (t.rows.others (some i)) row := by
  rw [mem_reported_iff]
  constructor
  · intro h
    by_contra hnot
    exact h ⟨row, hrow, hnot⟩
  · rintro h ⟨other, hother, hnot⟩
    rw [t.rows.eq_of_mem hother hrow] at hnot
    exact hnot h

/-- If all other rows are old ones, none of them is reported that was not reported before. Were one
of them in conflict with a new row, so would the new row be with it. -/
theorem reported_subset (h : ∀ j row, (j, row) ∈ t'.rows.entries →
    (j, row) ∈ t.rows.entries ∨ j ∉ t'.reported) : t'.reported ⊆ t.reported := by
  intro i hi
  obtain ⟨row, hrow, hbad⟩ := mem_reported_iff.1 hi
  have hold : (i, row) ∈ t.rows.entries := (h i row hrow).resolve_right fun hnot => hnot hi
  refine mem_reported_iff.2 ⟨row, hold, fun hgood => hbad ⟨hgood.1, ?_⟩⟩
  rintro other hother hconflict
  obtain ⟨j, hj, hmem⟩ := Rows.mem_others_some.1 hother
  rcases h j other hmem with holder | hnew
  · exact hgood.2 other (Rows.mem_others_some.2 ⟨j, hj, holder⟩) hconflict
  · have hobeys := (not_mem_reported_iff hmem).1 hnew
    exact hobeys.2 row (Rows.mem_others_some.2 ⟨i, hj.symm, hrow⟩) hconflict.symm

/-- Nothing is reported after an operation that was not reported before, nor is the row that the
operation has written. -/
structure Contained (t t' : Table E) (written? : Option InstanceNumber) : Prop where
  subset : t'.reported ⊆ t.reported
  written : ∀ i, written? = some i → i ∈ t'.rows.instances ∧ i ∉ t'.reported

theorem Contained.refl (t : Table E) : Contained t t none where
  subset := List.Subset.refl _
  written := by simp

theorem contained_of_obeys {row : E} (hrow : (i, row) ∈ t'.rows.entries)
    (hothers : ∀ j other, (j, other) ∈ t'.rows.entries → j ≠ i → (j, other) ∈ t.rows.entries)
    (h : Obeys (t'.rows.others (some i)) row) : Contained t t' (some i) := by
  have hi : i ∉ t'.reported := (not_mem_reported_iff hrow).2 h
  constructor
  · apply reported_subset
    intro j other hmem
    by_cases hj : j = i
    · exact Or.inr (hj ▸ hi)
    · exact Or.inl (hothers j other hmem hj)
  · rintro _ ⟨⟩
    exact ⟨Rows.mem_instances_iff.2 ⟨row, hrow⟩, hi⟩

theorem contained_add {row : E} (hadd : t.add row = .ok (i, t')) : Contained t t' (some i) := by
  obtain ⟨-, rfl, named, -, -, herror, rfl⟩ := add_eq_ok_iff.1 hadd
  rw [rowError?_eq_none_iff] at herror
  refine contained_of_obeys (Rows.mem_entries_insert.2 (Or.inl ⟨rfl, rfl⟩)) ?_ ⟨herror.1, ?_⟩
  · intro j other hmem hj
    rcases Rows.mem_entries_insert.1 hmem with ⟨heq, -⟩ | ⟨-, hold⟩
    · exact absurd heq hj
    · exact hold
  · intro other hother
    obtain ⟨j, hj, hmem⟩ := Rows.mem_others_some.1 hother
    rcases Rows.mem_entries_insert.1 hmem with ⟨heq, -⟩ | ⟨-, hold⟩
    · exact absurd heq hj
    · exact herror.2 other (Rows.mem_others_none.2 ⟨j, hold⟩)

theorem contained_commit {old row : E} (hold : t.rows.get? i = some old)
    (h : Obeys (t.rows.others (some i)) row) : Contained t (t.commit i old row) (some i) := by
  have hi : i ∈ t.rows.instances := Rows.mem_instances_iff.2 ⟨old, Rows.get?_eq_some_iff.1 hold⟩
  have hothers : ∀ j other, (j, other) ∈ (t.rows.replace i row).entries → j ≠ i →
      (j, other) ∈ t.rows.entries := by
    intro j other hmem hj
    rcases (Rows.mem_entries_replace hi).1 hmem with ⟨heq, -⟩ | ⟨-, hold⟩
    · exact absurd heq hj
    · exact hold
  refine contained_of_obeys ((Rows.mem_entries_replace hi).2 (Or.inl ⟨rfl, rfl⟩)) hothers ⟨h.1, ?_⟩
  intro other hother
  obtain ⟨j, hj, hmem⟩ := Rows.mem_others_some.1 hother
  exact h.2 other (Rows.mem_others_some.2 ⟨j, hj, hothers j other hmem hj⟩)

theorem contained_removeWhere (t : Table E) (p : E → Bool) :
    Contained t (t.removeWhere p).2 none := by
  constructor
  · apply reported_subset
    intro j row hmem
    rw [mem_entries_removeWhere] at hmem
    exact Or.inl hmem.1
  · simp

/-- No operation on a table spreads violations. -/
theorem Step.contained {op : Op E} {w : Option InstanceNumber} (h : Step t op w t') :
    Contained t t' w := by
  cases h with
  | refused => exact .refl t
  | added hadd => exact contained_add hadd
  | removed hremove =>
    obtain ⟨-, rfl⟩ := remove_eq_ok_iff.1 hremove
    refine ⟨reported_subset fun j other hmem => Or.inl ?_, by simp⟩
    exact (Rows.mem_entries_erase.1 hmem).2
  | removedWhere p => exact contained_removeWhere t p
  | written hwrite =>
    obtain ⟨old, row, hold, -, hfaults, rfl⟩ := write_eq_ok_iff.1 hwrite
    rw [rowFaults_eq_nil_iff] at hfaults
    exact contained_commit hold hfaults
  | updated hupdate =>
    obtain ⟨old, hold, -, herror, rfl⟩ := update_eq_ok_iff.1 hupdate
    rw [rowError?_eq_none_iff] at herror
    exact contained_commit hold herror
  | optionsSet options => exact ⟨reported_subset fun _ _ hmem => Or.inl hmem, by simp⟩

section Rank

variable [Ranked E]

theorem conflict_withRank (a b : E) (m n : UInt32) :
    Conflict (Ranked.withRank a m) (Ranked.withRank b n) ↔ Conflict a b := by
  have hkeys : ∀ key ∈ Entity.uniqueKeys E,
      (∀ p ∈ key, Entity.get? (Ranked.withRank a m) p = Entity.get? (Ranked.withRank b n) p) ↔
        ∀ p ∈ key, Entity.get? a p = Entity.get? b p := by
    intro key hkey
    refine forall₂_congr fun p hp => ?_
    have hne : p ≠ Ranked.rankName E := by
      rintro rfl
      exact Ranked.rankName_not_mem_key key hkey hp
    rw [Ranked.get?_withRank_of_ne a m hne, Ranked.get?_withRank_of_ne b n hne]
  simp only [Conflict, Ranked.alias?_withRank, Ranked.isEnabled_withRank]
  apply or_congr Iff.rfl
  apply and_congr Iff.rfl
  apply and_congr Iff.rfl
  exact exists_congr fun key => and_congr_right fun hkey => hkeys key hkey

/-- Ranks have no part in the rules between rows. -/
theorem Reranked.reported_subset {s t : Table E} (h : Reranked s t) :
    t.reported ⊆ s.reported := by
  intro i hi
  obtain ⟨row, hrow, hbad⟩ := mem_reported_iff.1 hi
  obtain ⟨old, n, hold, rfl⟩ := h.mem_entries hrow
  refine mem_reported_iff.2 ⟨old, hold, fun hgood => hbad ⟨?_, ?_⟩⟩
  · intro a ha
    exact hgood.1 a (by simpa using ha)
  · intro other hother hconflict
    obtain ⟨j, hj, hmem⟩ := Rows.mem_others_some.1 hother
    obtain ⟨before, m, hbefore, rfl⟩ := h.mem_entries hmem
    rw [conflict_withRank] at hconflict
    exact hgood.2 before (Rows.mem_others_some.2 ⟨j, hj, hbefore⟩) hconflict

theorem Contained.reranked {s t u : Table E} {written? : Option InstanceNumber}
    (h : Contained s t written?) (hrank : Reranked t u) : Contained s u written? where
  subset := List.Subset.trans hrank.reported_subset h.subset
  written := by
    intro i hi
    obtain ⟨hmem, hgood⟩ := h.written i hi
    exact ⟨hrank.instances_eq ▸ hmem, fun hbad => hgood (hrank.reported_subset hbad)⟩

end Rank

structure Consistent (t : Table E) : Prop where
  aliases_valid : ∀ i row s, t.get? i = some row → Entity.alias? row = some s → Alias.IsValid s
  aliases_distinct : ∀ i j row other s, t.get? i = some row → t.get? j = some other →
    Entity.alias? row = some s → Entity.alias? other = some s → i = j
  keys_distinct : ∀ i j row other, t.get? i = some row → t.get? j = some other → i ≠ j →
    Entity.isEnabled row = true → Entity.isEnabled other = true →
      ∀ key ∈ Entity.uniqueKeys E, ∃ p ∈ key, Entity.get? row p ≠ Entity.get? other p

theorem consistent_of_reported (h : t.reported = []) : t.Consistent := by
  have hobeys : ∀ {i row}, t.get? i = some row → Obeys (t.rows.others (some i)) row := by
    intro i row hrow
    rw [← not_mem_reported_iff (Rows.get?_eq_some_iff.1 hrow), h]
    exact List.not_mem_nil
  have hconflict : ∀ {i j row other}, t.get? i = some row → t.get? j = some other → i ≠ j →
      ¬ Conflict row other := by
    intro i j row other hrow hother hij
    apply (hobeys hrow).2
    exact Rows.mem_others_some.2 ⟨j, hij.symm, Rows.get?_eq_some_iff.1 hother⟩
  constructor
  · intro i row s hrow hs
    exact (hobeys hrow).1 s hs
  · intro i j row other s hrow hother hs hs'
    by_contra hij
    exact hconflict hrow hother hij (Or.inl ⟨s, hs, hs'⟩)
  · intro i j row other hrow hother hij henabled henabled' key hkey
    by_contra hall
    push Not at hall
    exact hconflict hrow hother hij (Or.inr ⟨henabled, henabled', key, hkey, hall⟩)

/-- What holds of one operation holds of a run of them. -/
theorem reported_run_subset {S O : Type} {step : S → O → S} (table : S → Table E)
    (hstep : ∀ s op, (table (step s op)).reported ⊆ (table s).reported) (s : S) (ops : List O) :
    (table (ops.foldl step s)).reported ⊆ (table s).reported := by
  refine List.foldlRecOn (motive := fun s' => (table s').reported ⊆ (table s).reported) ops step
    (List.Subset.refl _) ?_
  intro s' hs' op _
  exact List.Subset.trans (hstep s' op) hs'

end Table

theorem Ranking.Step.contained [Ranked E] {t t' : Ranking E} {op : Ranking.Op E}
    {w : Option InstanceNumber} (h : Ranking.Step t op w t') :
    Table.Contained t.table t'.table w := by
  obtain ⟨op', s, -, hs, hrank⟩ := h.reranked
  exact hs.contained.reranked hrank

/-- No operation, accepted or refused, makes a row break a rule that it did not break before, and
the row that it has written breaks none. So where no document was loaded, no row ever does. -/
theorem violations_contained :
    (∀ (t : Table E) (op : Table.Op E), Table.Contained t (op.run t) (op.written? t)) ∧
      (∀ options ops, ((Table.empty options : Table E).run ops).Consistent) ∧
      ∀ [Ranked E],
        (∀ (t : Ranking E) (op : Ranking.Op E),
          Table.Contained t.table (op.run t).table (op.written? t)) ∧
        ∀ options ops, ((Ranking.empty options : Ranking E).run ops).table.Consistent := by
  have htable : ∀ (t : Table E) (op : Table.Op E), Table.Contained t (op.run t) (op.written? t) :=
    fun t op => (op.step t).contained
  refine ⟨htable, fun options ops => ?_, ?_⟩
  · apply Table.consistent_of_reported
    have hsub := Table.reported_run_subset id
      (fun t op => (htable t op).subset) (Table.empty options : Table E) ops
    exact List.subset_nil.1 hsub
  · intro _
    have hranking : ∀ (t : Ranking E) (op : Ranking.Op E),
        Table.Contained t.table (op.run t).table (op.written? t) :=
      fun t op => (op.step t).contained
    refine ⟨hranking, fun options ops => ?_⟩
    apply Table.consistent_of_reported
    have hsub := Table.reported_run_subset Ranking.table
      (fun t op => (hranking t op).subset) (Ranking.empty options : Ranking E) ops
    exact List.subset_nil.1 hsub

end Cwmp
