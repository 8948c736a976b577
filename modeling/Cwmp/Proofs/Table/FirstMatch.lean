import Cwmp.Objects.ConditionalPool
import Cwmp.Objects.Dhcp
import Cwmp.Proofs.Table.FieldFaults

/-! # The first row that applies

A candidate is classified by the row of smallest rank among those that apply to it. As operations
keep the order of the rows that they leave alone, and rows do not look at their ranks, a candidate
stays with its row as long as no row that applies to it is touched.
-/
namespace Cwmp

/-- Rows to which their rank does not matter when they are asked. -/
class RankBlind (E : Type) {C : outParam Type} [Entity E] [Ranked E] [Classifier E C] : Prop where
  applies_withRank : ∀ (e : E) (n : UInt32) (c : C),
    Classifier.applies (Ranked.withRank e n) c = Classifier.applies e c := by intro _ _ _; rfl

instance : RankBlind FirewallRule := {}
instance : RankBlind DhcpPool := {}
instance : RankBlind ConditionalPool := {}

namespace Ranking

variable {E C : Type} [Entity E] [Ranked E]

section Answer

variable [Classifier E C] {t : Ranking E} {c : C} {i : InstanceNumber} {row : E}

theorem get?_eq_some_iff : t.table.get? i = some row ↔ (i, row) ∈ t.byRank :=
  Rows.get?_eq_some_iff.trans t.byRank_perm.mem_iff.symm

theorem classify?_eq_none_iff : t.classify? c = none ↔
    ∀ i row, t.table.get? i = some row → Classifier.applies row c = false := by
  simp only [classify?, first?, List.find?_eq_none, Prod.forall, get?_eq_some_iff,
    Bool.not_eq_true]

/-- What is found comes before all others that apply. -/
theorem Dense.classify?_spec (h : t.Dense) (hfound : t.classify? c = some (i, row)) :
    t.table.get? i = some row ∧ Classifier.applies row c = true ∧
      ∀ j other, t.table.get? j = some other → Classifier.applies other c = true → j ≠ i →
        Ranked.rank row < Ranked.rank other := by
  obtain ⟨happlies, front, back, hsplit, hfront⟩ := List.find?_eq_some_iff_append.1 hfound
  have hpairwise := h.pairwise
  rw [hsplit, List.pairwise_append, List.pairwise_cons] at hpairwise
  refine ⟨get?_eq_some_iff.2 (by simp [hsplit]), happlies, ?_⟩
  intro j other hother hj hne
  have hmem := get?_eq_some_iff.1 hother
  rw [hsplit, List.mem_append, List.mem_cons] at hmem
  rcases hmem with hmem | heq | hmem
  · simpa [hj] using hfront _ hmem
  · exact absurd (congrArg Prod.fst heq) hne
  · exact UInt32.lt_iff_toNat_lt.2 (hpairwise.2.1.1 _ hmem)

theorem Dense.classify?_eq_some_iff (h : t.Dense) : t.classify? c = some (i, row) ↔
    t.table.get? i = some row ∧ Classifier.applies row c = true ∧
      ∀ j other, t.table.get? j = some other → Classifier.applies other c = true → j ≠ i →
        Ranked.rank row < Ranked.rank other := by
  refine ⟨h.classify?_spec, ?_⟩
  rintro ⟨hrow, happlies, hfirst⟩
  cases hfound : t.classify? c with
  | none =>
    have hout := classify?_eq_none_iff.1 hfound i row hrow
    rw [happlies] at hout
    cases hout
  | some found =>
    obtain ⟨j, other⟩ := found
    obtain ⟨hother, hother_applies, hbefore⟩ := h.classify?_spec hfound
    by_cases hj : j = i
    · subst hj
      obtain rfl := Option.some.inj (hother.symm.trans hrow)
      rfl
    · have hlt := hfirst j other hother hother_applies hj
      exact absurd (hbefore i row hrow happlies (Ne.symm hj)) (UInt32.lt_asymm hlt)

def appliesTo (t : Ranking E) (c : C) (i : InstanceNumber) : Bool :=
  (t.table.get? i).any fun row => Classifier.applies row c

theorem map_fst_classify? (t : Ranking E) (c : C) :
    (t.classify? c).map Prod.fst = (t.order.filter (t.appliesTo c)).head? := by
  rw [List.head?_filter, order, List.find?_map, classify?, first?]
  congr 1
  apply List.find?_congr
  rintro ⟨i, row⟩ hmem
  simp [appliesTo, get?_eq_some_iff.2 hmem]

end Answer

/-- The rows that an operation puts in, takes out, moves or changes. -/
def Op.Touches (t : Ranking E) : Op E → InstanceNumber → Prop
  | insert _ _, j => j = t.table.next
  | remove i, j => j = i
  | removeWhere p, j => (t.table.get? j).any p = true
  | purge now, j => ((t.table.get? j).any fun row => Expiring.isExpired row now) = true
  | reorder i _, j => j = i
  | write i _ _, j => j = i
  | update i _, j => j = i
  | setOptions _, _ => False

section Touched

variable {t t' : Ranking E} {op : Op E} {i j : InstanceNumber} {row : E}

/-- Without the touched rows the list stays as it is. -/
theorem Op.filter_list {p : InstanceNumber → Bool} (h : ∀ i, op.Touches t i → p i = false) :
    (op.list t t.order).filter p = t.order.filter p := by
  cases op with
  | insert row requested =>
    cases hinsert : t.insert row requested with
    | error error => cases requested <;> simp only [list, hinsert]
    | ok result =>
      obtain ⟨i, t'⟩ := result
      obtain ⟨-, table, hadd, -⟩ := insert_eq_ok_iff.1 hinsert
      have hi : p i = false := h i (Table.add_eq_ok_iff.1 hadd).2.1
      cases requested with
      | some r =>
        simp only [list, hinsert]
        exact filter_place hi t.order _
      | none => simp [list, hinsert, List.filter_append, hi]
  | remove i => exact filter_erase (h i rfl) t.order
  | removeWhere q => exact filter_removed h t.order
  | purge now => exact filter_removed h t.order
  | reorder i rank =>
    simp only [list]
    split_ifs
    · rfl
    · exact filter_moveTo (h i rfl) t.order _
  | write i origin updates =>
    simp only [list]
    split
    · exact filter_moveTo (h i rfl) t.order _
    · rfl
  | update i f =>
    simp only [list]
    split
    · exact filter_moveTo (h i rfl) t.order _
    · rfl
  | setOptions options => rfl

def StandsIn (s : Table E) (j : InstanceNumber) (row : E) : Prop :=
  ∃ old n, s.get? j = some old ∧ row = Ranked.withRank old n

theorem standsIn_self {s : Table E} (h : s.get? j = some row) : StandsIn s j row :=
  ⟨row, Ranked.rank row, h, (Ranked.withRank_rank row).symm⟩

theorem standsIn_of_settle {s u : Table E} {moved : Option InstanceNumber}
    (hkept : ∀ other, u.get? j = some other → s.get? j = some other)
    (h : (settle u moved).table.get? j = some row) : StandsIn s j row := by
  obtain ⟨old, n, hold, heq⟩ := (reranked_settle u moved).mem_entries (Rows.get?_eq_some_iff.1 h)
  exact ⟨old, n, hkept old (Rows.get?_eq_some_iff.2 hold), heq⟩

theorem standsIn_insert {new : E} {requested : Option UInt32}
    (h : t.insert new requested = .ok (i, t')) (hj : j ≠ t.table.next)
    (hrow : t'.table.get? j = some row) : StandsIn t.table j row := by
  obtain ⟨-, table, hadd, rfl⟩ := insert_eq_ok_iff.1 h
  obtain ⟨-, rfl, named, -, -, -, rfl⟩ := Table.add_eq_ok_iff.1 hadd
  refine standsIn_of_settle (fun other hother => ?_) hrow
  have hmem := Rows.mem_entries_insert.1 (Rows.get?_eq_some_iff.1 hother)
  exact Rows.get?_eq_some_iff.2 (hmem.resolve_left fun hnew => hj hnew.1).2

theorem standsIn_remove {old : E} (h : t.remove i = .ok (old, t'))
    (hrow : t'.table.get? j = some row) : StandsIn t.table j row := by
  obtain ⟨table, htable, rfl⟩ := remove_eq_ok_iff.1 h
  obtain ⟨-, rfl⟩ := Table.remove_eq_ok_iff.1 htable
  refine standsIn_of_settle (fun other hother => ?_) hrow
  exact Rows.get?_eq_some_iff.2 (Rows.mem_entries_erase.1 (Rows.get?_eq_some_iff.1 hother)).2

theorem standsIn_removeWhere {p : E → Bool} (h : (t.removeWhere p).2.table.get? j = some row) :
    StandsIn t.table j row := by
  rcases removeWhere_table t p with ⟨hsame, -⟩ | hsettled
  · rw [hsame] at h
    exact standsIn_self h
  · rw [hsettled] at h
    refine standsIn_of_settle (fun other hother => ?_) h
    exact Rows.get?_eq_some_iff.2
      (Table.mem_entries_removeWhere.1 (Rows.get?_eq_some_iff.1 hother)).1

theorem standsIn_reorder {rank : UInt32} (h : t.reorder i rank = .ok t') (hj : j ≠ i)
    (hrow : t'.table.get? j = some row) : StandsIn t.table j row := by
  obtain ⟨-, old, hold, rfl⟩ := reorder_eq_ok_iff.1 h
  have hi : i ∈ t.table.rows.instances :=
    Rows.mem_instances_iff.2 ⟨old, Rows.get?_eq_some_iff.1 hold⟩
  refine standsIn_of_settle (fun other hother => ?_) hrow
  have hmem := (Rows.mem_entries_replace hi).1 (Rows.get?_eq_some_iff.1 hother)
  exact Rows.get?_eq_some_iff.2 (hmem.resolve_left fun hmoved => hj hmoved.1).2

theorem standsIn_commit {old new : E} {moved : Option InstanceNumber}
    (hold : t.table.get? i = some old) (hj : j ≠ i)
    (hrow : (settle (t.table.commit i old new) moved).table.get? j = some row) :
    StandsIn t.table j row := by
  refine standsIn_of_settle (fun other hother => ?_) hrow
  exact (((Table.get?_commit hold).1 hother).resolve_left fun hnew => hj hnew.1).2

/-- A row that the operation does not touch is the same afterwards, but for its rank. -/
theorem Step.standsIn {w : Option InstanceNumber} (h : Step t op w t') (hj : ¬ op.Touches t j)
    (hrow : t'.table.get? j = some row) : StandsIn t.table j row := by
  cases h with
  | refused => exact standsIn_self hrow
  | inserted h => exact standsIn_insert h hj hrow
  | removed h => exact standsIn_remove h hrow
  | removedWhere p => exact standsIn_removeWhere hrow
  | reordered h => exact standsIn_reorder h hj hrow
  | written h =>
    obtain ⟨table, htable, rfl⟩ := write_eq_ok_iff.1 h
    obtain ⟨old, new, hold, -, -, rfl⟩ := Table.write_eq_ok_iff.1 htable
    exact standsIn_commit hold hj hrow
  | updated h =>
    obtain ⟨table, htable, rfl⟩ := update_eq_ok_iff.1 h
    obtain ⟨old, hold, -, -, rfl⟩ := Table.update_eq_ok_iff.1 htable
    exact standsIn_commit hold hj hrow
  | optionsSet options => exact standsIn_self hrow

end Touched

variable [Classifier E C] [RankBlind E] {t : Ranking E} {op : Op E} {c : C}

theorem Op.appliesTo_of_not_touches {j : InstanceNumber} (hj : ¬ op.Touches t j)
    (hmem : j ∈ (op.run t).order) : (op.run t).appliesTo c j = t.appliesTo c j := by
  obtain ⟨row, hrow⟩ := exists_row hmem
  obtain ⟨old, n, hold, rfl⟩ := (op.step t).standsIn hj hrow
  have hnew : (op.run t).table.get? j = some (Ranked.withRank old n) := hrow
  simp only [appliesTo, hnew, hold, Option.any_some, RankBlind.applies_withRank]

/-- A candidate stays with its row when no row that applies to it, before or after the operation, is
touched. -/
theorem Dense.classify?_run (h : t.Dense) (hsize : t.table.rows.size < Text.uint32Max)
    (hfresh : op.Fresh t) (hbefore : ∀ i, op.Touches t i → t.appliesTo c i = false)
    (hafter : ∀ i, op.Touches t i → (op.run t).appliesTo c i = false) :
    ((op.run t).classify? c).map Prod.fst = (t.classify? c).map Prod.fst := by
  have hsame : ∀ j ∈ (op.run t).order, (op.run t).appliesTo c j = t.appliesTo c j := by
    intro j hj
    by_cases htouched : op.Touches t j
    · rw [hbefore j htouched, hafter j htouched]
    · exact op.appliesTo_of_not_touches htouched hj
  rw [map_fst_classify?, map_fst_classify?, List.filter_congr hsame, h.order_run hsize hfresh,
    Op.filter_list hbefore]

/-- After any run a candidate is classified by the row of smallest rank that applies to it, if one
does. It then stays with its row while the operations to come touch only rows that do not apply to
it, neither before nor after, whatever ranks they give to the others. -/
theorem classified_by_rank (ht : t.Initial) (ops : List (Op E)) (c : C) :
    ((t.run ops).classify? c = none ↔
      ∀ i row, (t.run ops).table.get? i = some row → Classifier.applies row c = false) ∧
    (∀ i row, (t.run ops).classify? c = some (i, row) ↔
      (t.run ops).table.get? i = some row ∧ Classifier.applies row c = true ∧
        ∀ j other, (t.run ops).table.get? j = some other → Classifier.applies other c = true →
          j ≠ i → Ranked.rank row < Ranked.rank other) ∧
    ∀ op : Op E, (t.run ops).table.NextIsFree →
      (∀ i row, op.Touches (t.run ops) i → (t.run ops).table.get? i = some row ∨
        (op.run (t.run ops)).table.get? i = some row → Classifier.applies row c = false) →
      ((op.run (t.run ops)).classify? c).map Prod.fst = ((t.run ops).classify? c).map Prod.fst := by
  have hdense : (t.run ops).Dense := ht.dense_run ops
  refine ⟨classify?_eq_none_iff, fun i row => hdense.classify?_eq_some_iff, ?_⟩
  intro op hfree htouched
  have hsize : (t.run ops).table.rows.size < Text.uint32Max :=
    Rows.size_lt_of_not_mem (Entity.initial : E) hfree
  have hfresh : op.Fresh (t.run ops) := by
    cases op with
    | insert row requested => exact hfree
    | _ => trivial
  apply hdense.classify?_run hsize hfresh
  · intro i hi
    cases hrow : (t.run ops).table.get? i with
    | none => simp [appliesTo, hrow]
    | some row => simp [appliesTo, hrow, htouched i row hi (.inl hrow)]
  · intro i hi
    cases hrow : (op.run (t.run ops)).table.get? i with
    | none => simp [appliesTo, hrow]
    | some row => simp [appliesTo, hrow, htouched i row hi (.inr hrow)]

def guestRules : Doc :=
  .table [(.index 1, .table [(.name "Enable", .boolean true), (.name "Order", .integer 9)]),
    (.index 2, .table [(.name "Enable", .boolean true), (.name "Order", .integer 4),
      (.name "SourceInterface", .text "guests")])]

def lanPacket : Packet where
  sourceInterface := some "lan"
  sourceIp := ⟨[10, 0, 0, 2], rfl⟩
  destIp := ⟨[10, 0, 0, 1], rfl⟩
  protocol := 6
  sourcePort := some 40000
  destPort := some 80
  dscp := 0

/-- The rule for guests is deleted, and the other one gets the rank 1. -/
theorem classified_by_rank_guests : ∃ (t : Ranking FirewallRule) (row : FirewallRule),
    decode guestRules = .ok t ∧ t.table.NextIsFree ∧
    t.classify? lanPacket = some ({ number := 1 }, row) ∧
    ((Op.run t (.remove { number := 2 })).classify? lanPacket).map Prod.fst =
      some { number := 1 } := by
  let s : Table FirewallRule := .ofRows ⟨[({ number := 1 }, { enable := true, order := 9 }),
    ({ number := 2 }, { enable := true, order := 4, sourceInterface := "guests" })], by decide⟩
  let t : Ranking FirewallRule := settle s none
  have hdecode : decode guestRules = .ok t := rfl
  have hfree : t.table.NextIsFree := by
    unfold Table.NextIsFree
    decide
  obtain ⟨row, hrow, happlies⟩ : ∃ row, t.table.get? { number := 1 } = some row ∧
      Classifier.applies row lanPacket = true := ⟨_, rfl, rfl⟩
  have hguests : ∀ j other, t.table.get? j = some other → j ≠ { number := 1 } →
      Classifier.applies other lanPacket = false := by
    intro j other hother hj
    obtain ⟨old, n, hold, rfl⟩ := (reranked_settle s none).mem_entries
      (Rows.get?_eq_some_iff.1 hother)
    simp only [s, Table.ofRows, List.mem_cons, List.not_mem_nil, or_false, Prod.mk.injEq] at hold
    rcases hold with ⟨rfl, -⟩ | ⟨-, rfl⟩
    · exact absurd rfl hj
    · rfl
  obtain ⟨-, hfound, hstays⟩ := classified_by_rank (.loaded hdecode) [] lanPacket
  have hanswer : t.classify? lanPacket = some ({ number := 1 }, row) := by
    refine (hfound _ row).2 ⟨hrow, happlies, fun j other hother hother_applies hj => ?_⟩
    rw [hguests j other hother hj] at hother_applies
    cases hother_applies
  refine ⟨t, row, hdecode, hfree, hanswer, ?_⟩
  have hsame := hstays (.remove { number := 2 }) hfree fun i other hi hother => ?_
  · exact hsame.trans (congrArg (Option.map Prod.fst) hanswer)
  · obtain rfl : i = { number := 2 } := hi
    rcases hother with hother | hgone
    · exact hguests _ other hother (by decide)
    · cases hgone

end Ranking
end Cwmp
