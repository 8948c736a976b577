import Cwmp.Objects.Firewall
import Cwmp.Proofs.Entity.Request
import Cwmp.Proofs.Table.ListMoves
import Cwmp.Proofs.Table.RankOrder

/-! # Rankings as lists

A ranking is a list of its rows, and every operation on it is one on that list: it puts a row into
a place, takes rows out or leaves the list. Whatever ranks a document held, they are 1, 2, …
without gaps from then on.
-/
namespace Cwmp.Ranking

variable {E : Type} [Entity E] [Ranked E]

section Dense

variable {t t' : Ranking E}

theorem Dense.pairwise (h : t.Dense) : t.byRank.Pairwise fun a b => rankOf a < rankOf b := by
  rw [← List.pairwise_map, h]
  exact List.pairwise_lt_range'

theorem Dense.rankOf_mem (h : t.Dense) {e : InstanceNumber × E} (he : e ∈ t.table.rows.entries) :
    0 < rankOf e ∧ rankOf e ≤ t.table.rows.size := by
  have hmem : rankOf e ∈ t.byRank.map rankOf := List.mem_map_of_mem (t.byRank_perm.mem_iff.2 he)
  rw [h, List.mem_range'_1] at hmem
  omega

theorem Dense.rankOf_getElem (h : t.Dense) {k : Nat} (hk : k < t.byRank.length) :
    rankOf t.byRank[k] = k + 1 := by
  have hget := List.getElem_of_eq (show t.byRank.map rankOf = _ from h) (by simpa using hk)
  rw [List.getElem_map, List.getElem_range'] at hget
  omega

theorem Dense.rankOf_eq (h : t.Dense) {i : InstanceNumber} {row : E}
    (hrow : (i, row) ∈ t.table.rows.entries) : rankOf (i, row) = t.order.idxOf i + 1 := by
  obtain ⟨k, hk, hget⟩ := List.getElem_of_mem (t.byRank_perm.mem_iff.2 hrow)
  have hk' : k < t.order.length := by simpa [order] using hk
  have hplace : t.order[k] = i := by simp [order, hget]
  rw [← hget, h.rankOf_getElem hk, ← hplace, t.order_nodup.idxOf_getElem]

/-- The rows below a rank are those in the places before it. -/
theorem Dense.filter_lt (h : t.Dense) (r : Nat) :
    (t.byRank.filter fun e => rankOf e < r) = t.byRank.take (r - 1) ∧
      (t.byRank.filter fun e => !decide (rankOf e < r)) = t.byRank.drop (r - 1) := by
  have htake : ∀ e ∈ t.byRank.take (r - 1), rankOf e < r := by
    intro e he
    obtain ⟨k, hk, rfl⟩ := List.mem_take_iff_getElem.1 he
    rw [h.rankOf_getElem]
    omega
  have hdrop : ∀ e ∈ t.byRank.drop (r - 1), ¬ rankOf e < r := by
    intro e he
    obtain ⟨k, hk, rfl⟩ := List.mem_drop_iff_getElem.1 he
    rw [h.rankOf_getElem]
    omega
  have hsplit := List.take_append_drop (r - 1) t.byRank
  constructor
  · conv_lhs => rw [← hsplit, List.filter_append]
    rw [List.filter_eq_self.2 fun e he => decide_eq_true (htake e he),
      List.filter_eq_nil_iff.2 fun e he => by simpa using hdrop e he, List.append_nil]
  · conv_lhs => rw [← hsplit, List.filter_append]
    rw [List.filter_eq_nil_iff.2 fun e he => by simpa using htake e he,
      List.filter_eq_self.2 fun e he => by simpa using hdrop e he, List.nil_append]

theorem Dense.orderOf_filter (h : t.Dense) {rows : Rows E} {p : InstanceNumber × E → Bool}
    (hrows : rows.entries = t.table.rows.entries.filter p) :
    orderOf rows = (t.byRank.filter p).map Prod.fst := by
  have hsorted : sorted rows = t.byRank.filter p := by
    apply sorted_eq
    · rw [hrows]
      exact t.byRank_perm.filter p
    · exact h.pairwise.filter p
  rw [orderOf, hsorted]

/-- A row that is put beside the others comes between those in the places before its rank and those
from there on. -/
theorem Dense.order_settle (h : t.Dense) (hsize : t.table.rows.size < Text.uint32Max)
    {table : Table E} {i : InstanceNumber} {row : E}
    (hperm : table.rows.entries.Perm ((i, row) :: t.table.rows.entries.filter (·.1 != i))) :
    (settle table (some i)).order =
      (t.order.take (rankOf (i, row) - 1)).filter (· != i) ++ i ::
        (t.order.drop (rankOf (i, row) - 1)).filter (· != i) := by
  have hothers : table.rows.entries.Perm ((i, row) :: t.byRank.filter (·.1 != i)) :=
    hperm.trans ((t.byRank_perm.filter _).symm.cons _)
  have hmax : ∀ e ∈ t.byRank.filter (·.1 != i), rankOf e < Text.uint32Max := by
    intro e he
    have hmem := t.byRank_perm.mem_iff.1 (List.mem_filter.1 he).1
    exact (h.rankOf_mem hmem).2.trans_lt hsize
  obtain ⟨htake, hdrop⟩ := h.filter_lt (rankOf (i, row))
  have hfst : ∀ l : List (InstanceNumber × E),
      (l.filter (·.1 != i)).map Prod.fst = (l.map Prod.fst).filter (· != i) := by
    intro l
    rw [List.filter_map]
    rfl
  rw [order_of_compact rfl, orderOf_makeRoom hothers (h.pairwise.filter _) hmax]
  simp only [List.filter_filter, Bool.and_comm _ (_ != _)]
  rw [← List.filter_filter, ← List.filter_filter, htake, hdrop, hfst, hfst, List.map_take,
    List.map_drop]
  rfl

end Dense

section Ranks

variable {t : Ranking E}

theorem rank_named {t : Table E} {i : InstanceNumber} {row named : E}
    (h : t.named i row = .ok named) : Ranked.rank named = Ranked.rank row := by
  unfold Table.named at h
  split_ifs at h with halias
  · obtain ⟨s, -, rfl⟩ := map_eq_ok_iff.1 h
    apply Ranked.rank_eq_of_get?
    apply Entity.get?_assign_of_ne
    intro hname
    cases (Ranked.alias?_eq_none hname row).symm.trans halias
  · cases h
    rfl

theorem foldl_max_range' (n : Nat) : (List.range' 1 n).foldl max 0 = n := by
  induction n with
  | zero => rfl
  | succ n ih =>
    rw [List.range'_concat, List.foldl_append, ih]
    simp only [List.foldl_cons, List.foldl_nil]
    omega

/-- In a dense order the largest rank is the number of rows. -/
theorem Dense.maxRank_eq (h : t.Dense) : t.maxRank.toNat = t.table.rows.size := by
  have hfold : ∀ (l : List (InstanceNumber × E)) (m : UInt32),
      (l.foldl (fun n e => max n (Ranked.rank e.2)) m).toNat =
        (l.map rankOf).foldl max m.toNat := by
    intro l
    induction l with
    | nil => exact fun _ => rfl
    | cons e l ih =>
      intro m
      rw [List.foldl_cons, ih, UInt32.toNat_max]
      rfl
  have hranks : (t.table.rows.entries.map rankOf).Perm (List.range' 1 t.table.rows.size) := by
    have hperm := t.byRank_perm.symm.map rankOf
    rwa [show t.byRank.map rankOf = _ from h] at hperm
  calc t.maxRank.toNat
      = (t.table.rows.entries.map rankOf).foldl max 0 := hfold t.table.rows.entries 0
    _ = (List.range' 1 t.table.rows.size).foldl max 0 := hranks.foldl_eq 0
    _ = t.table.rows.size := foldl_max_range' _

variable (E) in
def requestedRank? (updates : Updates) : Option Nat :=
  (updates.lookup (Ranked.rankName E)).bind fun text =>
    Text.unsigned? Text.uint64Max (Text.trim text.toList)

/-- A written row has the rank that the request gives, or else it keeps the one that it had. -/
theorem rank_write {origin : Origin} {updates : Updates} {old row : E}
    (h : Entity.write origin updates old = .ok row) :
    (∃ r, requestedRank? E updates = some r ∧ (Ranked.rank row).toNat = r ∧
      (updates.any fun u => u.1 == Ranked.rankName E) = true) ∨
    (requestedRank? E updates = none ∧ Ranked.rank row = Ranked.rank old ∧
      (updates.any fun u => u.1 == Ranked.rankName E) = false) := by
  obtain ⟨hstages, hblames⟩ := Entity.write_eq_ok origin h
  cases hlookup : updates.lookup (Ranked.rankName E) with
  | none =>
    have hnot : ∀ u ∈ updates, u.1 ≠ Ranked.rankName E := by
      intro u hu heq
      have hne := List.lookup_eq_none_iff.1 hlookup u hu
      simp [heq] at hne
    refine Or.inr ⟨by simp [requestedRank?, hlookup], ?_, by simpa using fun a b => hnot (a, b)⟩
    apply Ranked.rank_eq_of_get?
    apply hstages.get?_of_not_mem
    rintro hmem
    obtain ⟨u, hu, heq⟩ := List.mem_map.1 hmem
    exact hnot u hu heq
  | some text =>
    have hmem : (Ranked.rankName E, text) ∈ updates := by
      obtain ⟨before, after, rfl, -⟩ := List.lookup_eq_some_iff.1 hlookup
      simp
    obtain ⟨f, v, hknown, hreads, -⟩ := (Entity.blames_nil_iff.1 hblames).2.fits _ _ hmem
    obtain rfl := Option.some.inj (hknown.symm.trans Ranked.field?_rankName)
    have hget := hstages.get?_of_mem hblames hmem hknown hreads
    simp only [Field.rw, Shape.kind, Kind.read] at hreads
    split at hreads
    next n hn =>
      obtain rfl := Except.ok.inj hreads
      rw [Ranked.get?_rankName] at hget
      refine Or.inl ⟨n, by simp [requestedRank?, hlookup, hn], ?_, ?_⟩
      · simpa [Shape.canonical] using hget
      · rw [List.any_eq_true]
        exact ⟨_, hmem, by simp⟩
    next => cases hreads

end Ranks

section Effects

variable {t t' : Ranking E} {i : InstanceNumber} {row : E}

theorem Dense.order_insert (h : t.Dense) (hfree : t.table.NextIsFree) {requested : Option UInt32}
    (hinsert : t.insert row requested = .ok (i, t')) :
    t'.order = match requested with
      | some r => place t.order i (min r.toNat (t.order.length + 1))
      | none => t.order ++ [i] := by
  obtain ⟨-, table, hadd, rfl⟩ := insert_eq_ok_iff.1 hinsert
  obtain ⟨-, rfl, named, hnamed, -, -, rfl⟩ := Table.add_eq_ok_iff.1 hadd
  have hsize : t.table.rows.size < Text.uint32Max := Rows.size_lt_of_not_mem row hfree
  have hmem : t.table.next ∉ t.order := fun hin => hfree (mem_order.1 hin)
  have hrank : rankOf (t.table.next, named) = (requested.getD (rankAfter t.maxRank)).toNat := by
    rw [rankOf, rank_named hnamed, Ranked.rank_withRank]
  have hperm : (t.table.rows.insert t.table.next named).entries.Perm
      ((t.table.next, named) :: t.table.rows.entries.filter (·.1 != t.table.next)) := by
    rw [Rows.filter_entries_of_not_mem hfree, Rows.entries_insert hfree]
    exact List.perm_append_singleton _ _
  rw [h.order_settle hsize hperm, split_eq_place t.order_nodup hmem, hrank]
  cases requested with
  | some r => rfl
  | none =>
    have hafter : (rankAfter t.maxRank).toNat = t.order.length + 1 := by
      rw [length_order, ← h.maxRank_eq]
      rw [← h.maxRank_eq] at hsize
      simp only [rankAfter, hsize, ↓reduceIte, UInt32.toNat_add, UInt32.reduceToNat]
      simp only [Text.uint32Max] at hsize
      omega
    simp only [Option.getD_none, hafter, min_self, place, Nat.add_sub_cancel]
    rw [List.erase_of_not_mem hmem, List.insertIdx_length_self]

theorem Dense.order_remove (h : t.Dense) (hremove : t.remove i = .ok (row, t')) :
    t'.order = t.order.erase i := by
  obtain ⟨table, htable, rfl⟩ := remove_eq_ok_iff.1 hremove
  obtain ⟨-, rfl⟩ := Table.remove_eq_ok_iff.1 htable
  have hrows : (t.table.rows.erase i).entries = t.table.rows.entries.filter (·.1 != i) := rfl
  rw [order_of_compact rfl]
  simp only [Table.drop, h.orderOf_filter hrows]
  rw [t.order_nodup.erase_eq_filter, order, List.filter_map]
  rfl

theorem Dense.order_removeWhere (h : t.Dense) (p : E → Bool) :
    (t.removeWhere p).2.order = t.order.filter fun i => !(t.table.get? i).any p := by
  have horder : (t.removeWhere p).2.order = orderOf (t.table.removeWhere p).2.rows := by
    rcases removeWhere_table t p with ⟨hrank, htable⟩ | hrank
    · rw [hrank, htable]
      rfl
    · rw [hrank]
      exact order_of_compact rfl
  rw [horder, h.orderOf_filter (t.table.entries_removeWhere p), order, List.filter_map]
  congr 1
  apply List.filter_congr
  intro e he
  have hget : t.table.get? e.1 = some e.2 := Rows.get?_eq_some_iff.2 (t.byRank_perm.mem_iff.1 he)
  simp [hget]

theorem dense_settle (table : Table E) (moved : Option InstanceNumber) :
    (settle table moved).Dense :=
  dense_of_compact rfl

theorem Dense.order_replace (h : t.Dense) (hsize : t.table.rows.size < Text.uint32Max)
    (hi : i ∈ t.table.rows.instances) {table : Table E}
    (hrows : table.rows = t.table.rows.replace i row) :
    (settle table (some i)).order = moveTo t.order i (Ranked.rank row).toNat := by
  have hperm : table.rows.entries.Perm ((i, row) :: t.table.rows.entries.filter (·.1 != i)) := by
    rw [hrows]
    exact Rows.entries_replace_perm hi
  rw [h.order_settle hsize hperm, split_eq_moveTo t.order_nodup (mem_order.2 hi)]
  rfl

theorem Dense.order_reorder (h : t.Dense) (hsize : t.table.rows.size < Text.uint32Max)
    {rank : UInt32} (hreorder : t.reorder i rank = .ok t') :
    t'.order = moveTo t.order i rank.toNat := by
  obtain ⟨-, row, hrow, rfl⟩ := reorder_eq_ok_iff.1 hreorder
  have hi : i ∈ t.table.rows.instances :=
    Rows.mem_instances_iff.2 ⟨row, Rows.get?_eq_some_iff.1 hrow⟩
  rw [h.order_replace hsize hi rfl, Ranked.rank_withRank]

theorem order_commit {table : Table E} {old : E} (hold : t.table.rows.get? i = some old)
    (hrank : Ranked.rank row = Ranked.rank old) (hrows : table.rows = t.table.rows.replace i row) :
    (settle table none).order = t.order := by
  rw [order_of_compact rfl]
  simp only [hrows]
  apply orderOf_map
  rintro ⟨j, other⟩ hmem
  split_ifs with hj
  · subst hj
    rw [t.table.rows.eq_of_mem hmem (Rows.get?_eq_some_iff.1 hold), hrank]
  · rfl

theorem Dense.order_write (h : t.Dense) (hsize : t.table.rows.size < Text.uint32Max)
    {origin : Origin} {updates : Updates} (hwrite : t.write i origin updates = .ok t') :
    t'.order = match requestedRank? E updates with
      | some r => moveTo t.order i r
      | none => t.order := by
  obtain ⟨table, htable, rfl⟩ := write_eq_ok_iff.1 hwrite
  obtain ⟨old, row, hold, hrow, -, rfl⟩ := Table.write_eq_ok_iff.1 htable
  have hi : i ∈ t.table.rows.instances :=
    Rows.mem_instances_iff.2 ⟨old, Rows.get?_eq_some_iff.1 hold⟩
  rcases rank_write hrow with ⟨r, hr, rfl, hnamed⟩ | ⟨hnone, hrank, hnamed⟩
  · simp only [hr, hnamed, ↓reduceIte]
    exact h.order_replace hsize hi rfl
  · simp only [hnone, hnamed, Bool.false_eq_true, ↓reduceIte]
    exact order_commit hold hrank rfl

theorem Dense.order_update (h : t.Dense) (hsize : t.table.rows.size < Text.uint32Max)
    {f : E → E} (hupdate : t.update i f = .ok t') : ∃ old, t.table.get? i = some old ∧
      t'.order = moveTo t.order i (Ranked.rank (f old)).toNat := by
  obtain ⟨table, htable, rfl⟩ := update_eq_ok_iff.1 hupdate
  obtain ⟨old, hold, -, -, rfl⟩ := Table.update_eq_ok_iff.1 htable
  refine ⟨old, hold, ?_⟩
  have hmem := Rows.get?_eq_some_iff.1 hold
  have hi : i ∈ t.table.rows.instances := Rows.mem_instances_iff.2 ⟨old, hmem⟩
  have hnew : (t.table.commit i old (f old)).get? i = some (f old) :=
    Rows.get?_eq_some_iff.2 ((Rows.mem_entries_replace hi).2 (Or.inl ⟨rfl, rfl⟩))
  simp only [show t.table.get? i = some old from hold, hnew, Option.map_some]
  by_cases hrank : Ranked.rank (f old) = Ranked.rank old
  · -- The row stays where it is, which is where its rank says.
    have hplace : (Ranked.rank (f old)).toNat = t.order.idxOf i + 1 := by
      rw [hrank]
      exact h.rankOf_eq hmem
    rw [hplace, moveTo_idxOf]
    simp only [hrank, bne_self_eq_false, Bool.false_eq_true, ↓reduceIte]
    exact order_commit hold hrank rfl
  · have hmoved : (some (Ranked.rank old) != some (Ranked.rank (f old))) = true := by
      simpa using Ne.symm hrank
    simp only [hmoved, ↓reduceIte]
    exact h.order_replace hsize hi rfl

end Effects

/-- What an operation does to the list of row numbers. -/
def Op.list (t : Ranking E) (l : List InstanceNumber) : Op E → List InstanceNumber
  | insert row requested =>
    match t.insert row requested, requested with
    | .ok (i, _), some r => place l i (min r.toNat (l.length + 1))
    | .ok (i, _), none => l ++ [i]
    | .error _, _ => l
  | remove i => l.erase i
  | removeWhere p => l.filter fun i => !(t.table.get? i).any p
  | purge now => l.filter fun i => !(t.table.get? i).any fun row => Expiring.isExpired row now
  | reorder i rank => if rank = 0 then l else moveTo l i rank.toNat
  | write i origin updates =>
    match t.write i origin updates, requestedRank? E updates with
    | .ok _, some r => moveTo l i r
    | _, _ => l
  | update i f =>
    match t.update i f, t.table.get? i with
    | .ok _, some old => moveTo l i (Ranked.rank (f old)).toNat
    | _, _ => l
  | setOptions _ => l

section Runs

variable {t : Ranking E}

theorem exists_row {i : InstanceNumber} (h : i ∈ t.order) :
    ∃ row, t.table.rows.get? i = some row := by
  obtain ⟨row, hrow⟩ := Rows.mem_instances_iff.1 (mem_order.1 h)
  exact ⟨row, Rows.get?_eq_some_iff.2 hrow⟩

theorem Dense.step (h : t.Dense) {t' : Ranking E} {op : Op E} {w : Option InstanceNumber}
    (hstep : Step t op w t') : t'.Dense := by
  cases hstep with
  | refused => exact h
  | inserted hinsert =>
    obtain ⟨-, table, -, rfl⟩ := insert_eq_ok_iff.1 hinsert
    exact dense_settle table _
  | removed hremove =>
    obtain ⟨table, -, rfl⟩ := remove_eq_ok_iff.1 hremove
    exact dense_settle table none
  | removedWhere p =>
    rcases removeWhere_table t p with ⟨heq, -⟩ | heq
    · rwa [heq]
    · rw [heq]
      exact dense_settle _ none
  | reordered hreorder =>
    obtain ⟨-, row, -, rfl⟩ := reorder_eq_ok_iff.1 hreorder
    exact dense_settle _ _
  | written hwrite =>
    obtain ⟨table, -, rfl⟩ := write_eq_ok_iff.1 hwrite
    exact dense_settle table _
  | updated hupdate =>
    obtain ⟨table, -, rfl⟩ := update_eq_ok_iff.1 hupdate
    exact dense_settle table _
  | optionsSet options => exact h

/-- One operation on a ranking is one on the list of its rows. -/
theorem Dense.order_run (h : t.Dense) (hsize : t.table.rows.size < Text.uint32Max) {op : Op E}
    (hfresh : op.Fresh t) : (op.run t).order = op.list t t.order := by
  cases op with
  | insert row requested =>
    cases hinsert : t.insert row requested with
    | error error => simp [Op.run, Op.list, hinsert, Except.map, outcome]
    | ok result =>
      have horder := h.order_insert hfresh hinsert
      cases requested <;> simpa [Op.run, Op.list, hinsert, Except.map, outcome] using horder
  | remove i =>
    cases hremove : t.remove i with
    | error error =>
      have hi : i ∉ t.order := by
        intro hmem
        obtain ⟨row, hrow⟩ := exists_row hmem
        have hok := remove_eq_ok_iff.2 ⟨_, Table.remove_eq_ok_iff.2 ⟨hrow, rfl⟩, rfl⟩
        cases hremove.symm.trans hok
      simp [Op.run, Op.list, hremove, Except.map, outcome, List.erase_of_not_mem hi]
    | ok result =>
      simpa [Op.run, Op.list, hremove, Except.map, outcome] using h.order_remove hremove
  | removeWhere p => exact h.order_removeWhere p
  | purge now => exact h.order_removeWhere _
  | reorder i rank =>
    cases hreorder : t.reorder i rank with
    | error error =>
      have hlist : (if rank = 0 then t.order else moveTo t.order i rank.toNat) = t.order := by
        split_ifs with hzero
        · rfl
        · have hi : i ∉ t.order := by
            intro hmem
            obtain ⟨row, hrow⟩ := exists_row hmem
            cases hreorder.symm.trans (reorder_eq_ok_iff.2 ⟨hzero, row, hrow, rfl⟩)
          simp [moveTo, hi]
      simp [Op.run, Op.list, hreorder, outcome, hlist]
    | ok t' =>
      have hzero := (reorder_eq_ok_iff.1 hreorder).1
      simpa [Op.run, Op.list, hreorder, outcome, hzero] using h.order_reorder hsize hreorder
  | write i origin updates =>
    cases hwrite : t.write i origin updates with
    | error error => simp [Op.run, Op.list, hwrite, outcome]
    | ok t' =>
      have horder := h.order_write hsize hwrite
      cases hr : requestedRank? E updates <;>
        simpa [Op.run, Op.list, hwrite, outcome, hr] using horder
  | update i f =>
    cases hupdate : t.update i f with
    | error error => simp [Op.run, Op.list, hupdate, outcome]
    | ok t' =>
      obtain ⟨old, hold, horder⟩ := h.order_update hsize hupdate
      simpa [Op.run, Op.list, hupdate, outcome, hold] using horder
  | setOptions options => rfl

theorem Initial.dense (h : t.Initial) : t.Dense := by
  cases h with
  | empty options => simp [Dense, byRank, sorted, Ranking.empty, Table.empty, Rows.empty, Rows.size]
  | loaded hdecode =>
    obtain ⟨s, -, rfl⟩ := map_eq_ok_iff.1 hdecode
    exact dense_settle s none

/-- Whatever is done to a ranking, its ranks are 1, 2, … without gaps. -/
theorem Initial.dense_run (h : t.Initial) (ops : List (Op E)) : (t.run ops).Dense :=
  List.foldlRecOn ops Op.run h.dense fun t h op _ => h.step (op.step t)

/-- The rows of a table in the order of their ranks, ties being broken by the order of the table. -/
structure SortedFrom (s : Table E) (l : List InstanceNumber) : Prop where
  perm : l.Perm s.rows.instances
  pairwise : l.Pairwise fun i j => ∀ a b, s.get? i = some a → s.get? j = some b →
    Ranked.rank a < Ranked.rank b ∨
      (Ranked.rank a = Ranked.rank b ∧ s.rows.instances.idxOf i < s.rows.instances.idxOf j)

/-- A ranking is a list of its rows. It begins as an empty list or as the rows of a document in the
order of the ranks that they have there. After any run of operations the ranks along the list are
1, 2, … without gaps, and the next operation does to the ranking what it does to the list. -/
theorem refines_list :
    (∀ options, (Ranking.empty options : Ranking E).order = []) ∧
    (∀ (d : Doc) (t : Ranking E), decode d = .ok t →
      ∃ s : Table E, Table.decode d = .ok s ∧ SortedFrom s t.order) ∧
    ∀ t : Ranking E, t.Initial → ∀ ops : List (Op E), (t.run ops).Dense ∧
      ∀ op : Op E, op.Fresh (t.run ops) → (t.run ops).table.rows.size < 4294967295 →
        (op.run (t.run ops)).order = op.list (t.run ops) (t.run ops).order := by
  refine ⟨fun options => ?_, ?_, ?_⟩
  · simp [order, byRank, sorted, Ranking.empty, Table.empty, Rows.empty]
  · intro d t hdecode
    obtain ⟨s, hs, rfl⟩ := map_eq_ok_iff.1 hdecode
    refine ⟨s, hs, ?_⟩
    rw [order_of_compact rfl]
    exact ⟨orderOf_perm s.rows, orderOf_stable s.rows⟩
  · intro t ht ops
    have hdense : (t.run ops).Dense :=
      List.foldlRecOn ops Op.run ht.dense fun t h op _ => h.step (op.step t)
    exact ⟨hdense, fun op hfresh hsize => hdense.order_run hsize hfresh⟩

def tiedRules : Doc :=
  .table [(.index 1, .table [(.name "Order", .integer 9)]),
    (.index 2, .table [(.name "Order", .integer 9)]),
    (.index 3, .table [(.name "Order", .integer 4)])]

theorem refines_list_tied : ∃ t t' : Ranking FirewallRule, decode tiedRules = .ok t ∧
    t.order.map InstanceNumber.number = [3, 1, 2] ∧
      Op.run t (.reorder InstanceNumber.first.next 1) = t' ∧
        t'.order.map InstanceNumber.number = [2, 3, 1] := by
  let s : Table FirewallRule := .ofRows ⟨[({ number := 1 }, { order := 9 }),
    ({ number := 2 }, { order := 9 }), ({ number := 3 }, { order := 4 })], by decide⟩
  have hdecode : decode tiedRules = .ok (settle s none) := rfl
  have horder : (settle s none).order = [{ number := 3 }, { number := 1 }, { number := 2 }] := by
    rw [order_of_compact rfl]
    simp [s, Table.ofRows, orderOf, sorted, List.mergeSort, List.MergeSort.Internal.splitInTwo,
      Ranked.rank]
  have hsize : (settle s none).table.rows.size < 4294967295 := by
    simp [s, Table.ofRows, settle, compact, Rows.map, Rows.size]
  let op : Op FirewallRule := .reorder InstanceNumber.first.next 1
  have hrun : (op.run (settle s none)).order = op.list (settle s none) (settle s none).order :=
    (refines_list.2.2 (settle s none) (.loaded hdecode) []).2 op trivial hsize
  refine ⟨_, _, hdecode, by rw [horder]; rfl, rfl, ?_⟩
  rw [hrun, horder]
  decide

end Runs

end Cwmp.Ranking
