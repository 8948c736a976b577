import Cwmp.Proofs.Entity.FieldFaults
import Cwmp.Proofs.Table.RankMoves
import Cwmp.Proofs.Table.Reranked

/-! # Faults of rows

Rows that are created, and rows that the device changes by a function, are checked as a whole. A
request checks what it writes, and all other operations change ranks at most, to which positive ones
are given. So no operation brings a fault into a row, and where no document was loaded, no row ever
has one.
-/
namespace Cwmp

namespace Table

variable {E : Type}

/-- The row of which an operation checks all parameters: the one that it has written, unless a
request named the parameters. -/
def Op.checked? (op : Op E) (written? : Option InstanceNumber) : Option InstanceNumber :=
  match op with
  | .write _ _ _ => none
  | _ => written?

@[simp] theorem Op.checked?_none (op : Op E) : op.checked? none = none := by
  cases op <;> rfl

variable [Entity E] {s t t' u : Table E} {i : InstanceNumber}

/-- A checked row has no faults, and any other one has those at most that the row with its number
had before. -/
structure FaultsKept (t t' : Table E) (checked? : Option InstanceNumber) : Prop where
  kept : ∀ i row, t'.get? i = some row → checked? ≠ some i →
    ∃ old, t.get? i = some old ∧ Entity.validate row ⊆ Entity.validate old
  checked : ∀ i, checked? = some i → ∃ row, t'.get? i = some row ∧ Entity.validate row = []

theorem FaultsKept.refl (t : Table E) : FaultsKept t t none where
  kept := fun _ row hrow _ => ⟨row, hrow, List.Subset.refl _⟩
  checked := by simp

theorem faultsKept_of_subset (h : t'.rows.entries ⊆ t.rows.entries) : FaultsKept t t' none where
  kept := fun _ row hrow _ =>
    ⟨row, Rows.get?_eq_some_iff.2 (h (Rows.get?_eq_some_iff.1 hrow)), List.Subset.refl _⟩
  checked := by simp

theorem faultsKept_add {row : E} (h : t.add row = .ok (i, t')) : FaultsKept t t' (some i) := by
  obtain ⟨-, rfl, named, -, hvalid, -, rfl⟩ := add_eq_ok_iff.1 h
  constructor
  · intro j other hother hj
    rcases Rows.mem_entries_insert.1 (Rows.get?_eq_some_iff.1 hother) with ⟨heq, -⟩ | ⟨-, hold⟩
    · exact absurd (congrArg some heq.symm) hj
    · exact ⟨other, Rows.get?_eq_some_iff.2 hold, List.Subset.refl _⟩
  · rintro j ⟨⟩
    exact ⟨named, Rows.get?_eq_some_iff.2 (Rows.mem_entries_insert.2 (Or.inl ⟨rfl, rfl⟩)), hvalid⟩

theorem get?_commit {old row other : E} {j : InstanceNumber} (hold : t.rows.get? i = some old) :
    (t.commit i old row).get? j = some other ↔
      (j = i ∧ other = row) ∨ (j ≠ i ∧ t.get? j = some other) := by
  have hi : i ∈ t.rows.instances := Rows.mem_instances_iff.2 ⟨old, Rows.get?_eq_some_iff.1 hold⟩
  rw [get?, get?, Rows.get?_eq_some_iff, Rows.get?_eq_some_iff]
  exact Rows.mem_entries_replace hi

theorem faultsKept_update {f : E → E} (h : t.update i f = .ok t') : FaultsKept t t' (some i) := by
  obtain ⟨old, hold, hvalid, -, rfl⟩ := update_eq_ok_iff.1 h
  constructor
  · intro j other hother hj
    rcases (get?_commit hold).1 hother with ⟨heq, -⟩ | ⟨-, hother⟩
    · exact absurd (congrArg some heq.symm) hj
    · exact ⟨other, hother, List.Subset.refl _⟩
  · rintro j ⟨⟩
    exact ⟨f old, (get?_commit hold).2 (Or.inl ⟨rfl, rfl⟩), hvalid⟩

theorem faultsKept_write {origin : Origin} {updates : Updates}
    (h : t.write i origin updates = .ok t') : FaultsKept t t' none := by
  obtain ⟨old, row, hold, hwrite, -, rfl⟩ := write_eq_ok_iff.1 h
  constructor
  · intro j other hother _
    rcases (get?_commit hold).1 hother with ⟨rfl, rfl⟩ | ⟨-, hother⟩
    · exact ⟨old, hold, Entity.validate_write_subset hwrite⟩
    · exact ⟨other, hother, List.Subset.refl _⟩
  · simp

/-- No operation on a table brings a fault into a row. -/
theorem Step.faultsKept {op : Op E} {w : Option InstanceNumber} (h : Step t op w t') :
    FaultsKept t t' (op.checked? w) := by
  cases h with
  | refused => simpa using FaultsKept.refl t
  | added h => exact faultsKept_add h
  | removed h =>
    obtain ⟨-, rfl⟩ := remove_eq_ok_iff.1 h
    exact faultsKept_of_subset fun e he => (Rows.mem_entries_erase.1 he).2
  | removedWhere p =>
    rw [Op.checked?_none]
    exact faultsKept_of_subset fun e he => (mem_entries_removeWhere.1 he).1
  | written h => exact faultsKept_write h
  | updated h => exact faultsKept_update h
  | optionsSet options => exact faultsKept_of_subset (List.Subset.refl _)

def Faultless (t : Table E) : Prop :=
  ∀ i row, t.get? i = some row → Entity.validate row = []

theorem Faultless.kept (ht : t.Faultless) {checked? : Option InstanceNumber}
    (h : FaultsKept t t' checked?) : t'.Faultless := by
  intro i row hrow
  by_cases hi : checked? = some i
  · obtain ⟨found, hfound, hvalid⟩ := h.checked i hi
    obtain rfl : found = row := Option.some.inj (hfound.symm.trans hrow)
    exact hvalid
  · obtain ⟨old, hold, hsub⟩ := h.kept i row hrow hi
    rw [ht i old hold] at hsub
    exact List.subset_nil.1 hsub

theorem faultless_empty (options : Options) : (Table.empty options : Table E).Faultless := by
  intro i row hrow
  cases Rows.get?_eq_some_iff.1 hrow

theorem Faultless.run (ht : t.Faultless) (ops : List (Op E)) : (t.run ops).Faultless :=
  List.foldlRecOn (motive := Faultless) ops Op.run ht fun t ht op _ =>
    ht.kept (op.step t).faultsKept

/-- Positive ranks bring no faults. -/
theorem FaultsKept.reranked [Ranked E] {checked? : Option InstanceNumber}
    (h : FaultsKept s t checked?) (hrank : Reranked t u)
    (hpos : ∀ e ∈ u.rows.entries, 0 < Ranking.rankOf e) : FaultsKept s u checked? := by
  have hsub : ∀ {i row}, u.get? i = some row →
      ∃ old, t.get? i = some old ∧ Entity.validate row ⊆ Entity.validate old := by
    intro i row hrow
    have hmem := Rows.get?_eq_some_iff.1 hrow
    obtain ⟨old, n, hold, rfl⟩ := hrank.mem_entries hmem
    refine ⟨old, Rows.get?_eq_some_iff.2 hold, Entity.validate_withRank_subset old ?_⟩
    rintro rfl
    have hzero := hpos _ hmem
    rw [Ranking.rankOf, Ranked.rank_withRank] at hzero
    exact absurd hzero (by decide)
  constructor
  · intro i row hrow hi
    obtain ⟨mid, hmid, hrow⟩ := hsub hrow
    obtain ⟨old, hold, hmid⟩ := h.kept i mid hmid hi
    exact ⟨old, hold, List.Subset.trans hrow hmid⟩
  · intro i hi
    obtain ⟨mid, hmid, hvalid⟩ := h.checked i hi
    obtain ⟨n, hn⟩ := hrank.exists_mem (Rows.get?_eq_some_iff.1 hmid)
    obtain ⟨old, hold, hrow⟩ := hsub (Rows.get?_eq_some_iff.2 hn)
    obtain rfl : mid = old := Option.some.inj (hmid.symm.trans hold)
    rw [hvalid] at hrow
    exact ⟨_, Rows.get?_eq_some_iff.2 hn, List.subset_nil.1 hrow⟩

end Table

namespace Ranking

open Table (FaultsKept Reranked)

variable {E : Type}

def Op.checked? (op : Op E) (written? : Option InstanceNumber) : Option InstanceNumber :=
  match op with
  | .write _ _ _ => none
  | _ => written?

@[simp] theorem Op.checked?_none (op : Op E) : op.checked? none = none := by
  cases op <;> rfl

variable [Entity E] [Ranked E] {t t' : Ranking E}

theorem faultsKept_settle {s u : Table E} {checked? : Option InstanceNumber}
    {moved : Option InstanceNumber} (h : FaultsKept s u checked?) :
    FaultsKept s (settle u moved).table checked? :=
  h.reranked (reranked_settle u moved) fun _ he => ((dense_settle u moved).rankOf_mem he).1

/-- No operation on a ranking brings a fault into a row. -/
theorem Step.faultsKept {op : Op E} {w : Option InstanceNumber} (h : Step t op w t') :
    FaultsKept t.table t'.table (op.checked? w) := by
  cases h with
  | refused => simpa using FaultsKept.refl t.table
  | inserted h =>
    obtain ⟨-, table, hadd, rfl⟩ := insert_eq_ok_iff.1 h
    exact faultsKept_settle (Table.faultsKept_add hadd)
  | removed h =>
    obtain ⟨table, hremove, rfl⟩ := remove_eq_ok_iff.1 h
    exact faultsKept_settle (Table.Step.removed hremove).faultsKept
  | removedWhere p =>
    have hstep : FaultsKept t.table (t.table.removeWhere p).2 none :=
      (Table.Op.step t.table (.removeWhere p)).faultsKept
    rw [Op.checked?_none]
    rcases removeWhere_table t p with ⟨hsame, -⟩ | hsettled
    · rw [hsame]
      exact .refl _
    · rw [hsettled]
      exact faultsKept_settle hstep
  | reordered h =>
    obtain ⟨-, row, hrow, rfl⟩ := reorder_eq_ok_iff.1 h
    exact (FaultsKept.refl t.table).reranked
      ((reranked_replace hrow _).trans (reranked_settle _ _))
      fun _ he => ((dense_settle _ _).rankOf_mem he).1
  | written h =>
    obtain ⟨table, hwrite, rfl⟩ := write_eq_ok_iff.1 h
    exact faultsKept_settle (Table.faultsKept_write hwrite)
  | updated h =>
    obtain ⟨table, hupdate, rfl⟩ := update_eq_ok_iff.1 h
    exact faultsKept_settle (Table.faultsKept_update hupdate)
  | optionsSet options => exact Table.faultsKept_of_subset (List.Subset.refl _)

theorem faultless_run (ht : t.table.Faultless) (ops : List (Op E)) :
    (t.run ops).table.Faultless :=
  List.foldlRecOn (motive := fun t => t.table.Faultless) ops Op.run ht fun t ht op _ =>
    ht.kept (op.step t).faultsKept

end Ranking

theorem Entity.validate_request_subset {E : Type} [Entity E] (origin : Origin) (updates : Updates)
    (e : E) : validate (request origin updates e).2 ⊆ validate e := by
  unfold request
  cases h : write origin updates e with
  | error fault => exact List.Subset.refl _
  | ok e' => exact validate_write_subset h

/-- No request brings a fault into an object, be the object valid or not, and no operation brings
one into a row; a row that was created, or changed by the device, has none. So where no document was
loaded, no row ever has a fault. -/
theorem faults_contained {E : Type} [Entity E] :
    (∀ origin updates (e : E),
      Entity.validate (Entity.request origin updates e).2 ⊆ Entity.validate e) ∧
    (∀ (t : Table E) (op : Table.Op E),
      Table.FaultsKept t (op.run t) (op.checked? (op.written? t))) ∧
    (∀ options ops, ((Table.empty options : Table E).run ops).Faultless) ∧
    ∀ [Ranked E],
      (∀ (t : Ranking E) (op : Ranking.Op E),
        Table.FaultsKept t.table (op.run t).table (op.checked? (op.written? t))) ∧
      ∀ options ops, ((Ranking.empty options : Ranking E).run ops).table.Faultless := by
  refine ⟨Entity.validate_request_subset, fun t op => (op.step t).faultsKept,
    fun options ops => (Table.faultless_empty options).run ops, ?_⟩
  intro _
  exact ⟨fun t op => (op.step t).faultsKept,
    fun options ops => Ranking.faultless_run (Table.faultless_empty options) ops⟩

end Cwmp
