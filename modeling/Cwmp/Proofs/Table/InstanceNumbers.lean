import Cwmp.Objects.Firewall
import Cwmp.Objects.PortMapping
import Cwmp.Proofs.Table.Aliases

/-! # Instance numbers over a run

Numbers are given out in ascending order, so a new row gets a number that no row has had before and
no row goes away for it. This ends with the last number, which is given out again and again: a row
that has it is replaced by the next one, and the number comes back after the row is gone.
-/
namespace Cwmp

def InstanceNumber.last : InstanceNumber where
  number := Text.uint32Max

section Along

variable {E S O : Type} {step : S → O → S} {table : S → Table E} {s : S} {ops : List O}
  {i : InstanceNumber}

/-- A row has the number `i` in one of the states of a run, the first and the last included. -/
def BorneAlong (step : S → O → S) (table : S → Table E) (s : S) (ops : List O)
    (i : InstanceNumber) : Prop :=
  ∃ earlier, earlier <+: ops ∧ i ∈ (table (earlier.foldl step s)).rows.instances

theorem borneAlong_of_mem (h : i ∈ (table (ops.foldl step s)).rows.instances) :
    BorneAlong step table s ops i :=
  ⟨ops, List.prefix_refl ops, h⟩

theorem borneAlong_nil : BorneAlong step table s [] i ↔ i ∈ (table s).rows.instances := by
  simp [BorneAlong]

theorem borneAlong_concat {op : O} : BorneAlong step table s (ops ++ [op]) i ↔
    BorneAlong step table s ops i ∨
      i ∈ (table (step (ops.foldl step s) op)).rows.instances := by
  constructor
  · rintro ⟨earlier, hprefix, hi⟩
    rcases List.prefix_concat_iff.1 hprefix with rfl | hprefix
    · right
      simpa using hi
    · exact Or.inl ⟨earlier, hprefix, hi⟩
  · rintro (⟨earlier, hprefix, hi⟩ | hi)
    · exact ⟨earlier, hprefix.trans (List.prefix_append ops [op]), hi⟩
    · apply borneAlong_of_mem
      simpa using hi

end Along

namespace Table

section Counter

variable {E : Type} {s t u : Table E}

/-- The counter has passed the number `i`, or has come to its end. -/
def Passed (t : Table E) (i : InstanceNumber) : Prop :=
  i.number < t.next.number ∨ t.next.number = Text.uint32Max

theorem Passed.eq_last (h : t.Passed t.next) : t.next = .last := by
  rcases h with hlt | hend
  · exact absurd hlt (lt_irrefl _)
  · exact InstanceNumber.ext hend

theorem Passed.next_eq_last (h : t.Passed .last) : t.next = .last := by
  rcases h with hlt | hend
  · exact absurd t.next.le_max (not_le.2 hlt)
  · exact InstanceNumber.ext hend

theorem mem_next_iff {P : InstanceNumber → Prop} (hpassed : ∀ i, P i → t.Passed i) :
    P t.next ↔ P .last := by
  constructor
  · intro h
    exact (hpassed _ h).eq_last ▸ h
  · intro h
    exact (hpassed _ h).next_eq_last.symm ▸ h

/-- The counter does not go back, and a row that was not there before has a number that the counter
has passed. -/
structure Advances (s t : Table E) : Prop where
  passed : ∀ i, s.Passed i → t.Passed i
  created : ∀ i ∈ t.rows.instances, i ∈ s.rows.instances ∨ t.Passed i

theorem advances_of_subset (hnext : t.next = s.next)
    (hsub : t.rows.instances ⊆ s.rows.instances) : Advances s t where
  passed := by
    intro i hi
    simpa only [Passed, hnext] using hi
  created i hi := Or.inl (hsub hi)

theorem Advances.refl (t : Table E) : Advances t t :=
  advances_of_subset rfl (List.Subset.refl _)

theorem Advances.trans (h : Advances s t) (h' : Advances t u) : Advances s u where
  passed i hi := h'.passed i (h.passed i hi)
  created := by
    intro i hi
    rcases h'.created i hi with hi | hi
    · exact (h.created i hi).imp_right (h'.passed i)
    · exact Or.inr hi

/-- After a run the counter has passed every number that a row has had. -/
theorem passed_of_borneAlong {S O : Type} {step : S → O → S} {table : S → Table E} {s : S}
    (hstart : ∀ i ∈ (table s).rows.instances, (table s).Passed i)
    (hstep : ∀ s op, Advances (table s) (table (step s op))) {ops : List O} :
    ∀ {i}, BorneAlong step table s ops i → (table (ops.foldl step s)).Passed i := by
  induction ops using List.reverseRecOn with
  | nil => exact fun hi => hstart _ (borneAlong_nil.1 hi)
  | append_singleton ops op ih =>
    intro i hi
    have hadvances := hstep (ops.foldl step s) op
    rw [List.foldl_append, List.foldl_cons, List.foldl_nil]
    rcases borneAlong_concat.1 hi with hi | hi
    · exact hadvances.passed i (ih hi)
    · rcases hadvances.created i hi with hi | hi
      · exact hadvances.passed i (ih (borneAlong_of_mem hi))
      · exact hi

end Counter

section Step

variable {E : Type} [Entity E] {t t' : Table E} {i : InstanceNumber}

theorem advances_add {row : E} (h : t.add row = .ok (i, t')) : Advances t t' := by
  obtain ⟨-, rfl, named, -, -, -, rfl⟩ := add_eq_ok_iff.1 h
  constructor
  · intro j hj
    apply lt_next_of_le
    have := j.le_max
    rcases hj with hlt | hend <;> omega
  · intro j hj
    rcases Rows.mem_instances_insert.1 hj with rfl | hj
    · exact Or.inr (lt_next_of_le le_rfl)
    · exact Or.inl hj

theorem advances_drop {row : E} : Advances t (t.drop i row) := by
  refine advances_of_subset rfl fun j hj => ?_
  exact (Rows.mem_instances_erase.1 hj).2

theorem advances_commit {old row : E} : Advances t (t.commit i old row) :=
  advances_of_subset rfl (by simp [commit])

theorem Step.advances {op : Op E} {w : Option InstanceNumber} (h : Step t op w t') :
    Advances t t' := by
  cases h with
  | refused => exact .refl t
  | added hadd => exact advances_add hadd
  | removed hremove =>
    obtain ⟨-, rfl⟩ := remove_eq_ok_iff.1 hremove
    exact advances_drop
  | removedWhere p =>
    exact removeWhere_induction (P := Advances t) (fun _ _ _ _ h => h.trans advances_drop) (.refl t)
  | written hwrite =>
    obtain ⟨old, row, -, -, -, rfl⟩ := write_eq_ok_iff.1 hwrite
    exact advances_commit
  | updated hupdate =>
    obtain ⟨old, -, -, -, rfl⟩ := update_eq_ok_iff.1 hupdate
    exact advances_commit
  | optionsSet options => exact advances_of_subset rfl (List.Subset.refl _)

theorem Reranked.advances [Ranked E] {s : Table E} (h : Reranked s t) : Advances s t :=
  advances_of_subset h.next_eq (by rw [h.instances_eq]; exact List.Subset.refl _)

end Step

section Creation

variable {E : Type} [Entity E] {t t' : Table E} {i : InstanceNumber}
  {borne : InstanceNumber → Prop}

/-- The creation of the row `i` has led from `t` to `t'`, the numbers that rows have had so far
being `borne`. Only the last number is given out again, and only a row that has it is replaced. All
other rows are still there, each being the `same` as before. -/
structure Creates (borne : InstanceNumber → Prop) (same : E → E → Prop) (t : Table E)
    (i : InstanceNumber) (t' : Table E) : Prop where
  again_iff : borne i ↔ borne .last
  replaces_iff : i ∈ t.rows.instances ↔ .last ∈ t.rows.instances
  kept : ∀ j old, j ≠ i → t.get? j = some old → ∃ row, t'.get? j = some row ∧ same old row
  present : i ∈ t'.rows.instances

theorem creates_of_add (hpassed : ∀ i, borne i → t.Passed i)
    (hborne : ∀ i ∈ t.rows.instances, borne i) {row : E} (h : t.add row = .ok (i, t')) :
    Creates borne Eq t i t' := by
  obtain ⟨-, rfl, named, -, -, -, rfl⟩ := add_eq_ok_iff.1 h
  refine ⟨mem_next_iff hpassed, mem_next_iff fun i hi => hpassed i (hborne i hi), ?_, ?_⟩
  · intro j old hj hold
    refine ⟨old, ?_, rfl⟩
    simp only [Table.get?, Rows.get?_eq_some_iff] at hold ⊢
    exact Rows.mem_entries_insert.2 (Or.inr ⟨hj, hold⟩)
  · exact Rows.mem_instances_insert.2 (Or.inl rfl)

/-- Giving new ranks to the rows changes nothing else. -/
theorem Creates.reranked [Ranked E] {u : Table E} (h : Creates borne Eq t i t')
    (hrank : Reranked t' u) :
    Creates borne (fun old row => ∃ n, row = Ranked.withRank old n) t i u where
  again_iff := h.again_iff
  replaces_iff := h.replaces_iff
  kept := by
    intro j old hj hold
    obtain ⟨_, hrow, rfl⟩ := h.kept j old hj hold
    simp only [Table.get?, Rows.get?_eq_some_iff] at hrow ⊢
    obtain ⟨n, hn⟩ := hrank.exists_mem hrow
    exact ⟨_, hn, n, rfl⟩
  present := hrank.instances_eq ▸ h.present

end Creation

end Table

section Runs

variable {E : Type} [Entity E]

theorem Ranking.Step.advances [Ranked E] {t t' : Ranking E} {op : Ranking.Op E}
    {w : Option InstanceNumber} (h : Ranking.Step t op w t') :
    Table.Advances t.table t'.table := by
  obtain ⟨op', s, -, hs, hrank⟩ := h.reranked
  exact hs.advances.trans hrank.advances

theorem Ranking.Initial.passed [Ranked E] {t : Ranking E} (h : t.Initial) :
    ∀ i ∈ t.table.rows.instances, t.table.Passed i := by
  obtain ⟨s, hs, hrank⟩ := h.reranked
  exact (hrank.indexed hs.indexed).counted

/-- Whatever was done to a table or a ranking, and with whatever numbers it was loaded: a row that
is created gets a number that no row has had before, and all rows are still there after it, unless a
row has had the last number. The last number is given out again, and the row that has it is
replaced. -/
theorem creates_run :
    (∀ t : Table E, t.Initial → ∀ ops row i t', (t.run ops).add row = .ok (i, t') →
      (t.run ops).Creates (BorneAlong Table.Op.run id t ops) Eq i t') ∧
    ∀ [Ranked E] (t : Ranking E), t.Initial → ∀ ops row requested i t',
      (t.run ops).insert row requested = .ok (i, t') →
        (t.run ops).table.Creates (BorneAlong Ranking.Op.run Ranking.table t ops)
          (fun old row => ∃ n, row = Ranked.withRank old n) i t'.table := by
  constructor
  · intro t ht ops row i t' hadd
    have hpassed : ∀ i, BorneAlong Table.Op.run id t ops i → (t.run ops).Passed i := fun i =>
      Table.passed_of_borneAlong ht.indexed.counted fun t op => (op.step t).advances
    exact Table.creates_of_add hpassed (fun i hi => borneAlong_of_mem hi) hadd
  · intro _ t ht ops row requested i t' hinsert
    obtain ⟨-, table, hadd, rfl⟩ := Ranking.insert_eq_ok_iff.1 hinsert
    have hpassed : ∀ i, BorneAlong Ranking.Op.run Ranking.table t ops i →
        (t.run ops).table.Passed i := fun i =>
      Table.passed_of_borneAlong ht.passed fun t op => (op.step t).advances
    exact (Table.creates_of_add hpassed (fun i hi => borneAlong_of_mem hi) hadd).reranked
      (Ranking.reranked_settle table _)

end Runs

def seventhMapping : Doc :=
  .table [(.index 7, .table [(.name "Alias", .text "seven")])]

def oneRule : Ranking FirewallRule :=
  Ranking.empty.run [.insert {} none]

/-- The only row is deleted, and the number after its own is given out. A ranked row gives up its
rank to a new one, but not its number. -/
theorem creates_run_second :
    (∃ t t' : Table PortMapping, Table.decode seventhMapping = .ok t ∧
      (t.run [.remove { number := 7 }]).add { aliasText := "eight" } = .ok ({ number := 8 }, t') ∧
      (t.run [.remove { number := 7 }]).Creates
        (BorneAlong Table.Op.run id t [.remove { number := 7 }]) Eq { number := 8 } t') ∧
    ∃ t' : Ranking FirewallRule, oneRule.insert {} (some 1) = .ok ({ number := 2 }, t') ∧
      oneRule.table.Creates
        (BorneAlong Ranking.Op.run Ranking.table (.empty : Ranking FirewallRule) [.insert {} none])
        (fun old row => ∃ n, row = Ranked.withRank old n) { number := 2 } t'.table := by
  constructor
  · have hdecode : Table.decode seventhMapping = .ok (Table.ofRows (E := PortMapping)
        ⟨[({ number := 7 }, { aliasText := "seven" })], by decide⟩) := rfl
    exact ⟨_, _, hdecode, rfl, creates_run.1 _ (.loaded hdecode) [.remove { number := 7 }]
      { aliasText := "eight" } _ _ rfl⟩
  · exact ⟨_, rfl, (creates_run (E := FirewallRule)).2 _ (.empty {}) [.insert {} none] {} (some 1)
      _ _ rfl⟩

def lastMapping : Doc :=
  .table [(.index 4294967295, .table [(.name "Alias", .text "old")])]

/-- The row with the last number is replaced by a new one, which gets its number. -/
theorem add_replaces_last : ∃ t t' : Table PortMapping, Table.decode lastMapping = .ok t ∧
    t.get? .last = some { aliasText := "old" } ∧
    t.add { aliasText := "fresh" } = .ok (.last, t') ∧
    t'.get? .last = some { aliasText := "fresh" } ∧ t'.rows.size = 1 := by
  have hdecode : Table.decode lastMapping = .ok (Table.ofRows (E := PortMapping)
      ⟨[(.last, { aliasText := "old" })], by decide⟩) := rfl
  exact ⟨_, _, hdecode, rfl, rfl, rfl, rfl⟩

end Cwmp
