import Cwmp.Proofs.Table.Operations
import Mathlib.Data.List.InsertIdx
import Mathlib.Tactic

/-! # The order of ranks

Settling a ranking numbers its rows 1, 2, … in the order of the ranks that they had, and a row that
was given a rank in use comes before the rows from that rank on. Orders are found by exhibiting
them: a list of all rows with ascending ranks is the sorted one.
-/
namespace Cwmp

namespace Rows

variable {E : Type}

theorem size_le (r : Rows E) : r.size ≤ 4294967295 := by
  have hnodup : (r.instances.map InstanceNumber.number).Nodup :=
    r.nodup.map fun _ _ h => InstanceNumber.ext h
  have hsub : r.instances.map InstanceNumber.number ⊆ List.range' 1 4294967295 := by
    intro n hn
    obtain ⟨i, -, rfl⟩ := List.mem_map.1 hn
    have hpos := i.pos
    have hle := i.le_max
    simp only [Text.uint32Max] at hle
    rw [List.mem_range'_1]
    omega
  have hlength := (hnodup.subperm hsub).length_le
  simpa [size, instances] using hlength

theorem size_lt_of_not_mem {r : Rows E} {i : InstanceNumber} (row : E) (h : i ∉ r.instances) :
    r.size < 4294967295 := by
  have hle := (r.insert i row).size_le
  simp only [insert, dif_neg h, size, List.length_append, List.length_singleton] at hle ⊢
  omega

end Rows

namespace Ranking

variable {E : Type} [Entity E] [Ranked E]

def rankOf (e : InstanceNumber × E) : Nat :=
  (Ranked.rank e.2).toNat

/-- The numbers of rows in the order of their ranks. -/
def orderOf (rows : Rows E) : List InstanceNumber :=
  (sorted rows).map Prod.fst

theorem sorted_perm (rows : Rows E) : (sorted rows).Perm rows.entries :=
  List.mergeSort_perm _ _

theorem rankLe_trans (a b c : InstanceNumber × E) :
    decide (Ranked.rank a.2 ≤ Ranked.rank b.2) = true →
      decide (Ranked.rank b.2 ≤ Ranked.rank c.2) = true →
        decide (Ranked.rank a.2 ≤ Ranked.rank c.2) = true := by
  simp only [decide_eq_true_eq]
  exact UInt32.le_trans

theorem rankLe_total (a b : InstanceNumber × E) :
    (decide (Ranked.rank a.2 ≤ Ranked.rank b.2) ||
      decide (Ranked.rank b.2 ≤ Ranked.rank a.2)) = true := by
  simp only [Bool.or_eq_true, decide_eq_true_eq]
  exact UInt32.le_total _ _

theorem sorted_pairwise (rows : Rows E) :
    (sorted rows).Pairwise fun a b => rankOf a ≤ rankOf b := by
  have h := List.pairwise_mergeSort rankLe_trans rankLe_total rows.entries
  exact h.imp fun hab => UInt32.le_iff_toNat_le.1 (of_decide_eq_true hab)

theorem sorted_eq {rows : Rows E} {l : List (InstanceNumber × E)} (hperm : l.Perm rows.entries)
    (hlt : l.Pairwise fun a b => rankOf a < rankOf b) : sorted rows = l := by
  have hp : (sorted rows).Perm l := (sorted_perm rows).trans hperm.symm
  have hinj : ∀ a ∈ l, ∀ b ∈ l, rankOf a = rankOf b → a = b := by
    have hnodup : (l.map rankOf).Nodup := List.pairwise_map.2 (hlt.imp Nat.ne_of_lt)
    exact fun a ha b hb => List.inj_on_of_nodup_map hnodup ha hb
  refine List.Perm.eq_of_pairwise ?_ (sorted_pairwise rows) (hlt.imp Nat.le_of_lt) hp
  intro a b ha hb hab hba
  exact hinj a (hp.mem_iff.1 ha) b hb (Nat.le_antisymm hab hba)

theorem orderOf_perm (rows : Rows E) : (orderOf rows).Perm rows.instances :=
  (sorted_perm rows).map Prod.fst

theorem orderOf_nodup (rows : Rows E) : (orderOf rows).Nodup :=
  (orderOf_perm rows).nodup_iff.2 rows.nodup

theorem mem_orderOf {rows : Rows E} {i : InstanceNumber} :
    i ∈ orderOf rows ↔ i ∈ rows.instances :=
  (orderOf_perm rows).mem_iff

theorem length_orderOf (rows : Rows E) : (orderOf rows).length = rows.size := by
  simpa [Rows.instances, Rows.size] using (orderOf_perm rows).length_eq

/-- Rows come in the order of their ranks, and those of equal rank in that of the table. -/
theorem orderOf_stable (rows : Rows E) :
    (orderOf rows).Pairwise fun i j => ∀ a b, rows.get? i = some a → rows.get? j = some b →
      Ranked.rank a < Ranked.rank b ∨
        (Ranked.rank a = Ranked.rank b ∧ rows.instances.idxOf i < rows.instances.idxOf j) := by
  let zipped := rows.entries.zipIdx.mergeSort
    (List.zipIdxLE fun a b => decide (Ranked.rank a.2 ≤ Ranked.rank b.2))
  have horder : orderOf rows = zipped.map fun x => x.1.1 := by
    have hsorted : sorted rows = zipped.map Prod.fst := List.mergeSort_zipIdx.symm
    rw [orderOf, hsorted, List.map_map]
    rfl
  have hposition : ∀ x ∈ zipped, x.1 ∈ rows.entries ∧ rows.instances.idxOf x.1.1 = x.2 := by
    rintro ⟨e, k⟩ hx
    have hget := List.mk_mem_zipIdx_iff_getElem?.1 (List.mem_mergeSort.1 hx)
    obtain ⟨hk, rfl⟩ := List.getElem?_eq_some_iff.1 hget
    have hk' : k < rows.instances.length := by simpa [Rows.instances] using hk
    have hinstance : rows.instances[k] = (rows.entries[k]).1 := by simp [Rows.instances]
    refine ⟨List.getElem_mem hk, ?_⟩
    rw [← hinstance, rows.nodup_instances.idxOf_getElem]
  have hpairwise := List.pairwise_mergeSort (List.zipIdxLE_trans rankLe_trans)
    (List.zipIdxLE_total rankLe_total) rows.entries.zipIdx
  have hdistinct := orderOf_nodup rows
  rw [horder] at hdistinct ⊢
  rw [List.pairwise_map]
  refine (hpairwise.and (List.pairwise_map.1 hdistinct)).imp_of_mem fun {x y} hx hy hxy => ?_
  obtain ⟨hle, hne⟩ := hxy
  obtain ⟨hxmem, hxpos⟩ := hposition x hx
  obtain ⟨hymem, hypos⟩ := hposition y hy
  intro a b ha hb
  obtain rfl : x.1.2 = a := rows.eq_of_mem hxmem (Rows.get?_eq_some_iff.1 ha)
  obtain rfl : y.1.2 = b := rows.eq_of_mem hymem (Rows.get?_eq_some_iff.1 hb)
  have hpos : x.2 ≠ y.2 := by
    rw [← hxpos, ← hypos]
    intro heq
    exact hne ((List.idxOf_inj (Rows.mem_instances_iff.2 ⟨_, hxmem⟩)).1 heq)
  rw [hxpos, hypos]
  simp only [List.zipIdxLE] at hle
  split_ifs at hle with hxy hyx
  · simp only [decide_eq_true_eq] at hxy hyx hle
    exact Or.inr ⟨UInt32.le_antisymm hxy hyx, Nat.lt_of_le_of_ne hle hpos⟩
  · simp only [decide_eq_true_eq] at hyx
    exact Or.inl (UInt32.not_le.1 hyx)

theorem sorted_map {rows : Rows E} {f : InstanceNumber → E → E}
    (h : ∀ e ∈ rows.entries, Ranked.rank (f e.1 e.2) = Ranked.rank e.2) :
    sorted (rows.map f) = (sorted rows).map fun e => (e.1, f e.1 e.2) := by
  symm
  apply List.map_mergeSort
  intro a ha b hb
  rw [h a ha, h b hb]

theorem orderOf_map {rows : Rows E} {f : InstanceNumber → E → E}
    (h : ∀ e ∈ rows.entries, Ranked.rank (f e.1 e.2) = Ranked.rank e.2) :
    orderOf (rows.map f) = orderOf rows := by
  rw [orderOf, sorted_map h, List.map_map]
  rfl

def ranked (order : List InstanceNumber) (e : InstanceNumber × E) : InstanceNumber × E :=
  (e.1, Ranked.withRank e.2 (UInt32.ofNat (order.idxOf e.1 + 1)))

theorem ranks_ranked (rows : Rows E) :
    ((sorted rows).map (ranked (orderOf rows))).map rankOf = List.range' 1 rows.size := by
  have hlength : (sorted rows).length = rows.size := (sorted_perm rows).length_eq
  apply List.ext_getElem
  · simp [hlength]
  · intro k hk _
    simp only [List.length_map] at hk
    have hk' : k < (orderOf rows).length := by simpa [orderOf] using hk
    have hget : (orderOf rows)[k] = ((sorted rows)[k]).1 := by simp [orderOf]
    have hidx : (orderOf rows).idxOf ((sorted rows)[k]).1 = k := by
      rw [← hget, (orderOf_nodup rows).idxOf_getElem]
    have hle := rows.size_le
    simp only [List.getElem_map, rankOf, ranked, Ranked.rank_withRank, hidx, List.getElem_range',
      UInt32.toNat_ofNat']
    omega

theorem sorted_compact (rows : Rows E) :
    sorted (compact rows) = (sorted rows).map (ranked (orderOf rows)) := by
  apply sorted_eq
  · exact (sorted_perm rows).map _
  · rw [← List.pairwise_map, ranks_ranked]
    exact List.pairwise_lt_range'

/-- The ranks in their order are 1, 2, … without gaps. -/
def Dense (t : Ranking E) : Prop :=
  t.byRank.map rankOf = List.range' 1 t.table.rows.size

def order (t : Ranking E) : List InstanceNumber :=
  t.byRank.map Prod.fst

theorem byRank_perm (t : Ranking E) : t.byRank.Perm t.table.rows.entries :=
  sorted_perm t.table.rows

theorem order_nodup (t : Ranking E) : t.order.Nodup :=
  orderOf_nodup t.table.rows

theorem mem_order {t : Ranking E} {i : InstanceNumber} :
    i ∈ t.order ↔ i ∈ t.table.rows.instances :=
  mem_orderOf

theorem length_order (t : Ranking E) : t.order.length = t.table.rows.size :=
  length_orderOf t.table.rows

theorem dense_of_compact {t : Ranking E} {rows : Rows E} (h : t.table.rows = compact rows) :
    t.Dense := by
  have hsize : (compact rows).size = rows.size := by simp [compact, Rows.map, Rows.size]
  rw [Dense, byRank, h, sorted_compact, ranks_ranked, hsize]

theorem order_of_compact {t : Ranking E} {rows : Rows E} (h : t.table.rows = compact rows) :
    t.order = orderOf rows := by
  rw [order, byRank, h, sorted_compact, List.map_map]
  rfl

section Room

variable {rows : Rows E} {i : InstanceNumber} {row : E} {others : List (InstanceNumber × E)}

/-- A function on rows that keeps the row `i` and all ranks below its rank, and that keeps the
order of the other ranks but raises them above it. -/
structure Parts (f : InstanceNumber → E → E) (i : InstanceNumber) (row : E)
    (others : List (InstanceNumber × E)) : Prop where
  self : f i row = row
  below : ∀ e ∈ others, rankOf e < rankOf (i, row) → f e.1 e.2 = e.2
  above : ∀ e ∈ others, rankOf (i, row) ≤ rankOf e → rankOf (i, row) < rankOf (e.1, f e.1 e.2)
  mono : ∀ e ∈ others, ∀ e' ∈ others, rankOf (i, row) ≤ rankOf e → rankOf e < rankOf e' →
    rankOf (e.1, f e.1 e.2) < rankOf (e'.1, f e'.1 e'.2)

/-- The row `i` then comes between the rows below its rank and the others. -/
theorem orderOf_map_of_parts {f : InstanceNumber → E → E} (h : Parts f i row others)
    (hperm : rows.entries.Perm ((i, row) :: others))
    (hlt : others.Pairwise fun a b => rankOf a < rankOf b) :
    orderOf (rows.map f) =
      (others.filter fun e => rankOf e < rankOf (i, row)).map Prod.fst ++ i ::
        (others.filter fun e => !decide (rankOf e < rankOf (i, row))).map Prod.fst := by
  let g : InstanceNumber × E → InstanceNumber × E := fun e => (e.1, f e.1 e.2)
  let lower := others.filter fun e => rankOf e < rankOf (i, row)
  let upper := others.filter fun e => !decide (rankOf e < rankOf (i, row))
  have hlower : ∀ e ∈ lower, rankOf (g e) < rankOf (i, row) := by
    intro e he
    obtain ⟨hmem, hrank⟩ := List.mem_filter.1 he
    rw [decide_eq_true_eq] at hrank
    simpa only [g, h.below e hmem hrank] using hrank
  have hupper : ∀ e ∈ upper, rankOf (i, row) < rankOf (g e) := by
    intro e he
    obtain ⟨hmem, hrank⟩ := List.mem_filter.1 he
    simp only [Bool.not_eq_true', decide_eq_false_iff_not, not_lt] at hrank
    exact h.above e hmem hrank
  have hself : g (i, row) = (i, row) := by simp only [g, h.self]
  have hlist : sorted (rows.map f) = lower.map g ++ (i, row) :: upper.map g := by
    apply sorted_eq
    · have hsplit : ((i, row) :: others).Perm (lower ++ (i, row) :: upper) := by
        have hparts := List.filter_append_perm (fun e => decide (rankOf e < rankOf (i, row))) others
        exact (hparts.symm.cons _).trans List.perm_middle.symm
      have hmap := (hperm.trans hsplit).symm.map g
      rw [List.map_append, List.map_cons, hself] at hmap
      exact hmap
    · rw [List.pairwise_append, List.pairwise_cons, List.pairwise_map, List.pairwise_map]
      refine ⟨?_, ⟨?_, ?_⟩, ?_⟩
      · refine (hlt.filter _).imp_of_mem fun {a b} ha hb hab => ?_
        obtain ⟨hmema, hranka⟩ := List.mem_filter.1 ha
        obtain ⟨hmemb, hrankb⟩ := List.mem_filter.1 hb
        rw [decide_eq_true_eq] at hranka hrankb
        simpa only [g, h.below a hmema hranka, h.below b hmemb hrankb] using hab
      · intro e he
        obtain ⟨old, hold, rfl⟩ := List.mem_map.1 he
        exact hupper old hold
      · refine (hlt.filter _).imp_of_mem fun {a b} ha hb hab => ?_
        obtain ⟨hmema, hranka⟩ := List.mem_filter.1 ha
        simp only [Bool.not_eq_true', decide_eq_false_iff_not, not_lt] at hranka
        exact h.mono a hmema b (List.mem_filter.1 hb).1 hranka hab
      · intro e he e' he'
        obtain ⟨low, hlow, rfl⟩ := List.mem_map.1 he
        have hbelow := hlower low hlow
        rcases List.mem_cons.1 he' with rfl | he'
        · exact hbelow
        · obtain ⟨high, hhigh, rfl⟩ := List.mem_map.1 he'
          exact hbelow.trans (hupper high hhigh)
  have hfst : ∀ l : List (InstanceNumber × E), (l.map g).map Prod.fst = l.map Prod.fst := by
    intro l
    rw [List.map_map]
    rfl
  rw [orderOf, hlist, List.map_append, List.map_cons, hfst, hfst]

/-- A row that makes room comes before the rows from its rank on. -/
theorem orderOf_makeRoom (hperm : rows.entries.Perm ((i, row) :: others))
    (hlt : others.Pairwise fun a b => rankOf a < rankOf b)
    (hmax : ∀ e ∈ others, rankOf e < Text.uint32Max) :
    orderOf (makeRoom rows i) =
      (others.filter fun e => rankOf e < rankOf (i, row)).map Prod.fst ++ i ::
        (others.filter fun e => !decide (rankOf e < rankOf (i, row))).map Prod.fst := by
  have hrow : rows.get? i = some row :=
    Rows.get?_eq_some_iff.2 (hperm.mem_iff.2 List.mem_cons_self)
  have hmem : ∀ e ∈ others, e ∈ rows.entries ∧ e.1 ≠ i := by
    intro e he
    have hnodup := (hperm.map Prod.fst).nodup_iff.1 rows.nodup
    have hin : e.1 ∈ others.map Prod.fst := List.mem_map_of_mem he
    refine ⟨hperm.mem_iff.2 (List.mem_cons_of_mem _ he), ?_⟩
    rintro rfl
    exact (List.nodup_cons.1 hnodup).1 hin
  simp only [makeRoom, hrow]
  split_ifs with hany
  · -- Everything from the rank on moves one further, and no rank is too large for that.
    apply orderOf_map_of_parts _ hperm hlt
    have hafter : ∀ e ∈ others, rankOf (e.1, Ranked.withRank e.2 (rankAfter (Ranked.rank e.2))) =
        rankOf e + 1 := by
      intro e he
      have hlast := hmax e he
      simp only [rankOf, Text.uint32Max] at hlast
      simp only [rankOf, Ranked.rank_withRank, rankAfter, Text.uint32Max, hlast, ↓reduceIte,
        UInt32.toNat_add, UInt32.reduceToNat]
      omega
    have hshift : ∀ e ∈ others, rankOf (i, row) ≤ rankOf e →
        e.1 ≠ i ∧ Ranked.rank row ≤ Ranked.rank e.2 :=
      fun e he hle => ⟨(hmem e he).2, UInt32.le_iff_toNat_le.2 hle⟩
    constructor
    · simp
    · intro e he hlow
      have hnot : ¬ Ranked.rank row ≤ Ranked.rank e.2 := by
        rw [UInt32.le_iff_toNat_le]
        exact Nat.not_le_of_lt hlow
      rw [if_neg fun hc => hnot hc.2]
    · intro e he hle
      rw [if_pos (hshift e he hle), hafter e he]
      omega
    · intro e he e' he' hle hlt
      rw [if_pos (hshift e he hle), if_pos (hshift e' he' (by omega)), hafter e he, hafter e' he']
      omega
  · -- The rank is that of no other row, so all others from it on are larger.
    have hmap : rows = rows.map fun _ old => old := by simp [Rows.map]
    rw [hmap]
    apply orderOf_map_of_parts _ hperm hlt
    constructor
    · rfl
    · exact fun _ _ _ => rfl
    · intro e he hle
      refine Nat.lt_of_le_of_ne hle fun heq => hany ?_
      rw [List.any_eq_true]
      have hrank : Ranked.rank e.2 = Ranked.rank row := UInt32.toNat_inj.1 heq.symm
      exact ⟨e, (hmem e he).1, by simp [(hmem e he).2, hrank]⟩
    · exact fun _ _ _ _ _ hlt => hlt

end Room

end Ranking
end Cwmp
