import Cwmp.Objects.Firewall
import Cwmp.Objects.PortMapping
import Cwmp.Proofs.Table.Reranked

/-! # The alias index

The index repeats what the rows say and is kept beside them. After every run of operations it has
an entry for each alias of a row, and the entry names a row with that alias.
-/
namespace Cwmp

variable {E : Type} [Entity E]

def Holds (entries : List (InstanceNumber × E)) (s : String) (i : InstanceNumber) : Prop :=
  ∃ row, (i, row) ∈ entries ∧ Entity.alias? row = some s

/-- The index has an entry for each alias, and the entry names a holder of the alias. -/
structure Indexes (x : AliasIndex) (entries : List (InstanceNumber × E)) : Prop where
  sound : ∀ s i, x.get? s = some i → Holds entries s i
  complete : ∀ s i, Holds entries s i → x.get? s ≠ none

namespace Indexes

variable {x : AliasIndex} {entries entries' : List (InstanceNumber × E)}

theorem nil : Indexes {} ([] : List (InstanceNumber × E)) where
  sound := by
    intro s i h
    simp [AliasIndex.get?] at h
  complete := by
    rintro s i ⟨row, hrow, -⟩
    simp at hrow

theorem congr (h : Indexes x entries)
    (heq : ∀ s i, Holds entries s i ↔ Holds entries' s i) : Indexes x entries' where
  sound s i hs := (heq s i).1 (h.sound s i hs)
  complete s i hs := h.complete s i ((heq s i).2 hs)

theorem of_mem_iff (h : Indexes x entries) (heq : ∀ p, p ∈ entries ↔ p ∈ entries') :
    Indexes x entries' := by
  apply h.congr
  intro s i
  simp only [Holds, heq]

theorem indexRow (h : Indexes x entries) (i : InstanceNumber) (row : E) :
    Indexes (Table.indexRow x i row) (entries ++ [(i, row)]) := by
  have hmem : ∀ s j, Holds (entries ++ [(i, row)]) s j ↔
      Holds entries s j ∨ (j = i ∧ Entity.alias? row = some s) := by
    intro s j
    simp only [Holds, List.mem_append, List.mem_singleton, Prod.mk.injEq, or_and_right, exists_or]
    apply or_congr Iff.rfl
    constructor
    · rintro ⟨_, ⟨rfl, rfl⟩, hs⟩
      exact ⟨rfl, hs⟩
    · rintro ⟨rfl, hs⟩
      exact ⟨row, ⟨rfl, rfl⟩, hs⟩
  unfold Table.indexRow
  cases halias : Entity.alias? row with
  | none =>
    apply h.congr
    intro s j
    simp [hmem, halias]
  | some a =>
    constructor
    · intro s j hs
      rw [hmem]
      by_cases hsa : s = a
      · subst hsa
        rw [AliasIndex.get?_insert_self, Option.some.injEq] at hs
        exact Or.inr ⟨hs.symm, halias⟩
      · rw [AliasIndex.get?_insert_of_ne _ _ hsa] at hs
        exact Or.inl (h.sound s j hs)
    · intro s j hs
      by_cases hsa : s = a
      · subst hsa
        simp
      · rw [AliasIndex.get?_insert_of_ne _ _ hsa]
        rcases (hmem s j).1 hs with hold | ⟨-, hnew⟩
        · exact h.complete s j hold
        · rw [halias, Option.some.injEq] at hnew
          exact absurd hnew.symm hsa

theorem indexOf (entries : List (InstanceNumber × E)) :
    Indexes (Table.indexOf entries) entries := by
  suffices hfold : ∀ (rest seen : List (InstanceNumber × E)) (x : AliasIndex), Indexes x seen →
      Indexes (rest.foldl (fun x p => Table.indexRow x p.1 p.2) x) (seen ++ rest) from
    hfold entries [] {} .nil
  intro rest
  induction rest with
  | nil =>
    intro seen x hx
    simpa using hx
  | cons p rest ih =>
    intro seen x hx
    have hstep := ih (seen ++ [p]) _ (hx.indexRow p.1 p.2)
    simpa using hstep

end Indexes

section Erase

variable {x : AliasIndex} {rows : Rows E} {i j : InstanceNumber} {s : String}

theorem holds_erase : Holds (rows.erase i).entries s j ↔ j ≠ i ∧ Holds rows.entries s j := by
  simp only [Holds, Rows.mem_entries_erase, and_assoc, exists_and_left]

theorem get?_unindex_of_ne {a : String} (h : a ≠ s) :
    (Table.unindex x rows i s).get? a = x.get? a := by
  unfold Table.unindex
  split_ifs
  · split
    · exact AliasIndex.get?_insert_of_ne x _ h
    · exact AliasIndex.get?_erase_of_ne x h
  · rfl

/-- The alias of a row that goes away then stands for another holder. -/
theorem holds_of_get?_unindex (hx : x.get? s = some j → Holds rows.entries s j)
    (h : (Table.unindex x rows i s).get? s = some j) : Holds (rows.erase i).entries s j := by
  rw [holds_erase]
  unfold Table.unindex at h
  split_ifs at h with hi
  · split at h
    next k heir hfind =>
      rw [AliasIndex.get?_insert_self, Option.some.injEq] at h
      subst h
      have hheir := List.find?_some hfind
      simp only [Bool.and_eq_true, bne_iff_ne, ne_eq, beq_iff_eq] at hheir
      exact ⟨hheir.1, heir, List.mem_of_find?_eq_some hfind, hheir.2⟩
    next => simp at h
  · refine ⟨?_, hx h⟩
    rintro rfl
    exact hi h

theorem get?_unindex_ne_none (hx : x.get? s ≠ none) (h : Holds (rows.erase i).entries s j) :
    (Table.unindex x rows i s).get? s ≠ none := by
  obtain ⟨hj, heir, hheir, hs⟩ := holds_erase.1 h
  unfold Table.unindex
  split_ifs
  · split
    next => simp
    next hfind =>
      rw [List.find?_eq_none] at hfind
      exact absurd (by simp [hj, hs]) (hfind (j, heir) hheir)
  · exact hx

theorem Indexes.unindexRow (h : Indexes x rows.entries) {row : E} (hrow : (i, row) ∈ rows.entries) :
    Indexes (Table.unindexRow x rows i row) (rows.erase i).entries := by
  have hother : ∀ s, Entity.alias? row ≠ some s → ∀ j,
      Holds rows.entries s j ↔ Holds (rows.erase i).entries s j := by
    intro s hne j
    rw [holds_erase]
    refine ⟨fun hj => ⟨?_, hj⟩, And.right⟩
    rintro rfl
    obtain ⟨other, hmem, hs⟩ := hj
    exact hne (rows.eq_of_mem hrow hmem ▸ hs)
  unfold Table.unindexRow
  cases halias : Entity.alias? row with
  | none => exact h.congr fun s j => hother s (by simp [halias]) j
  | some a =>
    constructor
    · intro s j hj
      by_cases hsa : s = a
      · subst hsa
        exact holds_of_get?_unindex (h.sound s j) hj
      · dsimp only at hj
        rw [get?_unindex_of_ne hsa] at hj
        exact (hother s (by simpa [halias] using Ne.symm hsa) j).1 (h.sound s j hj)
    · intro s j hj
      have hold := (holds_erase.1 hj).2
      by_cases hsa : s = a
      · subst hsa
        exact get?_unindex_ne_none (h.complete s j hold) hj
      · dsimp only
        rw [get?_unindex_of_ne hsa]
        exact h.complete s j hold

end Erase

namespace Table

/-- The index agrees with the rows. A number that is in use is given out only when the numbers are
used up. -/
structure Indexed (t : Table E) : Prop where
  aliases : Indexes t.aliases t.rows.entries
  counted : ∀ i ∈ t.rows.instances, i.number < t.next.number ∨ t.next.number = Text.uint32Max

variable {t t' : Table E}

theorem number_le_foldl_max (i : InstanceNumber) (rest : List InstanceNumber) :
    ∀ j ∈ i :: rest, j.number ≤ (rest.foldl InstanceNumber.max i).number := by
  induction rest generalizing i with
  | nil => simp
  | cons k rest ih =>
    have hle := ih (i.max k)
    simp only [List.mem_cons, forall_eq_or_imp] at hle ⊢
    refine ⟨?_, ?_, hle.2⟩
    · exact (InstanceNumber.number_le_max_left i k).trans hle.1
    · exact (InstanceNumber.number_le_max_right i k).trans hle.1

theorem lt_next_of_le {i j : InstanceNumber} (h : j.number ≤ i.number) :
    j.number < i.next.number ∨ i.next.number = Text.uint32Max := by
  simp only [InstanceNumber.next]
  omega

theorem indexed_ofRows (rows : Rows E) (options : Options) : (ofRows rows options).Indexed where
  aliases := .indexOf rows.entries
  counted := by
    intro j hj
    simp only [ofRows] at hj ⊢
    cases hinstances : rows.instances with
    | nil => simp [hinstances] at hj
    | cons i rest =>
      rw [hinstances] at hj
      exact lt_next_of_le (number_le_foldl_max i rest j hj)

theorem indexed_empty (options : Options) : (empty options : Table E).Indexed where
  aliases := .nil
  counted := by
    intro j hj
    simp [empty, Rows.empty, Rows.instances] at hj

theorem Indexed.drop (h : t.Indexed) {i : InstanceNumber} {row : E}
    (hrow : (i, row) ∈ t.rows.entries) : (t.drop i row).Indexed where
  aliases := h.aliases.unindexRow hrow
  counted := by
    intro j hj
    apply h.counted
    exact (Rows.mem_instances_erase.1 hj).2

theorem Indexed.commit (h : t.Indexed) {i : InstanceNumber} {old row : E}
    (hold : (i, old) ∈ t.rows.entries) : (t.commit i old row).Indexed where
  aliases := by
    have hi : i ∈ t.rows.instances := Rows.mem_instances_iff.2 ⟨old, hold⟩
    simp only [Table.commit]
    split_ifs with halias
    · -- The same rows hold the same aliases.
      apply h.aliases.congr
      intro s j
      simp only [Holds, Rows.mem_entries_replace hi]
      by_cases hj : j = i
      · subst hj
        constructor
        · rintro ⟨other, hother, hs⟩
          rw [t.rows.eq_of_mem hother hold] at hs
          exact ⟨row, Or.inl ⟨rfl, rfl⟩, halias ▸ hs⟩
        · rintro ⟨other, ⟨-, rfl⟩ | ⟨hne, -⟩, hs⟩
          · exact ⟨old, hold, halias.trans hs⟩
          · exact absurd rfl hne
      · simp [hj]
    · -- The row goes away under its old alias and comes back under the new one.
      apply ((h.aliases.unindexRow hold).indexRow i row).of_mem_iff
      rintro ⟨j, other⟩
      simp only [List.mem_append, List.mem_singleton, Prod.mk.injEq, Rows.mem_entries_erase,
        Rows.mem_entries_replace hi, or_comm]
  counted := by
    simpa [Table.commit] using h.counted

theorem Indexed.add (h : t.Indexed) (hfree : t.NextIsFree) {row : E} {i : InstanceNumber}
    (hadd : t.add row = .ok (i, t')) : t'.Indexed := by
  obtain ⟨-, rfl, named, -, -, -, rfl⟩ := add_eq_ok_iff.1 hadd
  constructor
  · simp only [Rows.entries_insert hfree]
    exact h.aliases.indexRow t.next named
  · intro j hj
    apply lt_next_of_le
    rcases Rows.mem_instances_insert.1 hj with rfl | hj
    · rfl
    · have := j.le_max
      rcases h.counted j hj with hlt | hmax <;> omega

theorem Indexed.step {op : Op E} {w : Option InstanceNumber} (h : t.Indexed)
    (hstep : Step t op w t') (hfresh : op.Fresh t) : t'.Indexed := by
  cases hstep with
  | refused => exact h
  | added hadd => exact h.add hfresh hadd
  | removed hremove =>
    obtain ⟨hrow, rfl⟩ := remove_eq_ok_iff.1 hremove
    exact h.drop (Rows.get?_eq_some_iff.1 hrow)
  | removedWhere p => exact removeWhere_induction (fun _ _ _ hrow ht => ht.drop hrow) h
  | written hwrite =>
    obtain ⟨old, row, hold, -, -, rfl⟩ := write_eq_ok_iff.1 hwrite
    exact h.commit (Rows.get?_eq_some_iff.1 hold)
  | updated hupdate =>
    obtain ⟨old, hold, -, -, rfl⟩ := update_eq_ok_iff.1 hupdate
    exact h.commit (Rows.get?_eq_some_iff.1 hold)
  | optionsSet options => exact ⟨h.aliases, h.counted⟩

theorem Initial.indexed (h : t.Initial) : t.Indexed := by
  cases h with
  | empty options => exact indexed_empty options
  | loaded hdecode =>
    unfold decode at hdecode
    split at hdecode
    · obtain ⟨rows, -, rfl⟩ := map_eq_ok_iff.1 hdecode
      exact indexed_ofRows rows {}
    · cases hdecode

theorem Reranked.indexed [Ranked E] {s t : Table E} (h : Reranked s t) (hs : s.Indexed) :
    t.Indexed where
  aliases := by
    rw [h.aliases_eq]
    apply hs.aliases.congr
    intro a i
    constructor
    · rintro ⟨row, hrow, ha⟩
      obtain ⟨n, hn⟩ := h.exists_mem hrow
      exact ⟨_, hn, by simpa using ha⟩
    · rintro ⟨row, hrow, ha⟩
      obtain ⟨old, n, hold, rfl⟩ := h.mem_entries hrow
      exact ⟨old, hold, by simpa using ha⟩
  counted := by
    rw [h.instances_eq, h.next_eq]
    exact hs.counted

/-- The index and the counter agree with the rows after a run that gives no number out twice. -/
theorem Initial.indexed_run (ht : t.Initial) {ops : List (Op E)} (hfresh : t.FreshRun ops) :
    (t.run ops).Indexed :=
  Along.foldl (P := Indexed) (fun t op hop h => h.step (op.step t) hop) hfresh ht.indexed

structure AliasesExact (t : Table E) : Prop where
  /-- An alias stands for a row if and only if some row has it. -/
  resolves_iff : ∀ s, (∃ i, t.resolve s = .ok i) ↔
    ∃ i row, t.get? i = some row ∧ Entity.alias? row = some s
  /-- The row for which it stands has it, and is the row that the alias finds. -/
  resolved : ∀ s i, t.resolve s = .ok i →
    ∃ row, t.get? i = some row ∧ Entity.alias? row = some s ∧ t.byAlias? s = some (i, row)
  /-- An alias that no row has finds nothing. -/
  unresolved : ∀ s, (∀ i row, t.get? i = some row → Entity.alias? row ≠ some s) →
    t.resolve s = .error (.aliasNotFound (Entity.pathText E) s) ∧ t.byAlias? s = none
  /-- The next row gets the number of another one only when the numbers are used up. -/
  next_used : ¬ t.NextIsFree → t.next.number = 4294967295

theorem resolve_eq_ok_iff {s : String} {i : InstanceNumber} :
    t.resolve s = .ok i ↔ t.aliases.get? s = some i := by
  unfold resolve
  cases t.aliases.get? s <;> simp

theorem holds_iff_get? {s : String} {i : InstanceNumber} :
    Holds t.rows.entries s i ↔ ∃ row, t.get? i = some row ∧ Entity.alias? row = some s := by
  simp only [Holds, Table.get?, Rows.get?_eq_some_iff]

theorem Indexed.aliasesExact (h : t.Indexed) : t.AliasesExact where
  resolves_iff := by
    intro s
    simp only [resolve_eq_ok_iff, ← holds_iff_get?]
    constructor
    · rintro ⟨i, hi⟩
      exact ⟨i, h.aliases.sound s i hi⟩
    · rintro ⟨i, hi⟩
      exact Option.ne_none_iff_exists'.1 (h.aliases.complete s i hi)
  resolved := by
    intro s i hi
    rw [resolve_eq_ok_iff] at hi
    obtain ⟨row, hrow, hs⟩ := holds_iff_get?.1 (h.aliases.sound s i hi)
    exact ⟨row, hrow, hs, by simp [byAlias?, hi, hrow]⟩
  unresolved := by
    intro s hs
    have hnone : t.aliases.get? s = none := by
      rw [Option.eq_none_iff_forall_ne_some]
      intro i hi
      obtain ⟨row, hrow, ha⟩ := holds_iff_get?.1 (h.aliases.sound s i hi)
      exact hs i row hrow ha
    simp [resolve, byAlias?, hnone]
  next_used := by
    intro hused
    have hmem : t.next ∈ t.rows.instances := not_not.1 hused
    rcases h.counted t.next hmem with hlt | hmax
    · exact absurd hlt (lt_irrefl _)
    · exact hmax

end Table

theorem Ranking.Initial.indexed_run [Ranked E] {t : Ranking E} (ht : t.Initial) {ops : List (Op E)}
    (hfresh : t.FreshRun ops) : (t.run ops).table.Indexed :=
  run_induction (fun _ h => h.indexed) (fun _ _ _ _ hstep hop h => h.step hstep hop)
    (fun _ _ hrank h => hrank.indexed h) ht hfresh

/-- After every run that gives no number out twice, looking rows up by alias agrees with the rows:
whatever aliases a document held, and however rows were renamed and deleted since. -/
theorem aliasesExact_run :
    (∀ t : Table E, t.Initial → ∀ ops, t.FreshRun ops → (t.run ops).AliasesExact) ∧
      ∀ [Ranked E] (t : Ranking E), t.Initial → ∀ ops, t.FreshRun ops →
        (t.run ops).table.AliasesExact := by
  constructor
  · intro t ht ops hfresh
    exact (ht.indexed_run hfresh).aliasesExact
  · intro _ t ht ops hfresh
    exact (ht.indexed_run hfresh).aliasesExact

def twinMappings : Doc :=
  .table [(.index 1, .table [(.name "Alias", .text "twin")]),
    (.index 2, .table [(.name "Alias", .text "twin")])]

def partTwins : List (Table.Op PortMapping) :=
  [.remove InstanceNumber.first.next, .write .first .controller [("Alias", "single")]]

theorem aliasesExact_twins : ∃ t : Table PortMapping, Table.decode twinMappings = .ok t ∧
    (t.run (partTwins.take 1)).resolve "twin" = .ok .first ∧
    (t.run partTwins).resolve "single" = .ok .first ∧ (t.run partTwins).AliasesExact ∧
    ((Ranking.empty : Ranking FirewallRule).run [.insert {} (some 7)]).table.AliasesExact := by
  have hdecode : Table.decode twinMappings = .ok (Table.ofRows (E := PortMapping)
      ⟨[({ number := 1 }, { aliasText := "twin" }), ({ number := 2 }, { aliasText := "twin" })],
        by decide⟩) := rfl
  refine ⟨_, hdecode, rfl, rfl, ?_, ?_⟩
  · exact aliasesExact_run.1 _ (.loaded hdecode) partTwins ⟨trivial, trivial, trivial⟩
  · apply (aliasesExact_run (E := FirewallRule)).2 _ (.empty {}) [.insert {} (some 7)]
    exact ⟨List.not_mem_nil, trivial⟩

end Cwmp
