import Cwmp.Proofs.Table.Alike

/-! # Rankings that answer alike

Ranks are parameters, so documents keep them. Rankings whose tables are alike have their rows in the
same order, and they are settled in the same way.
-/
namespace Cwmp

variable {E : Type} [Entity E] [BEq E] [Regular E]

open Entity (Same same_reloaded)

namespace Rows

variable {r s : Rows E}

theorem any_kept_congr {p : InstanceNumber × E → Bool}
    (hp : ∀ i row, p (i, Entity.reloaded row) = p (i, row)) (h : r.kept = s.kept) :
    r.entries.any p = s.entries.any p := by
  have hkept : ∀ r : Rows E, r.entries.any p = r.kept.entries.any p := by
    intro r
    simp only [entries_kept, List.any_map, Function.comp_def, hp]
  rw [hkept r, h, ← hkept s]

end Rows

namespace Ranking

def Alike (t u : Ranking E) : Prop :=
  Table.Alike t.table u.table

theorem Alike.outcome {t u : Ranking E} {ε : Type} {x y : Except ε (Ranking E)} (h : Alike t u)
    (hxy : AnswerAlike Alike x y) : Alike (outcome t x) (outcome u y) := by
  cases hxy with
  | ok htu => exact htu
  | error e => exact h

def Op.Blind : Op E → Prop
  | removeWhere p => ∀ row, p (Entity.reloaded row) = p row
  | purge _ => ∀ row : E, Expiring.expiresAt (Entity.reloaded row) = Expiring.expiresAt row
  | update _ f => ∀ a b, Same a b → Same (f a) (f b)
  | _ => True

variable [Ranked E]

section Settling

variable {r s : Rows E}

theorem sorted_kept (r : Rows E) :
    sorted r.kept = (sorted r).map fun e => (e.1, Entity.reloaded e.2) :=
  sorted_map (f := fun _ => Entity.reloaded) fun _ _ => rank_reloaded _

theorem orderOf_kept (r : Rows E) : orderOf r.kept = orderOf r :=
  orderOf_map (f := fun _ => Entity.reloaded) fun _ _ => rank_reloaded _

theorem kept_compact_congr (h : r.kept = s.kept) : (compact r).kept = (compact s).kept := by
  have horder : (sorted r).map Prod.fst = (sorted s).map Prod.fst := by
    change orderOf r = orderOf s
    rw [← orderOf_kept r, h, orderOf_kept]
  unfold compact
  rw [horder]
  exact Rows.kept_eq_iff.2 ((Rows.kept_eq_iff.1 h).map fun _ _ _ hab => hab.withRank _)

theorem kept_makeRoom_congr (h : r.kept = s.kept) (i : InstanceNumber) :
    (makeRoom r i).kept = (makeRoom s i).kept := by
  unfold makeRoom
  rcases (Rows.kept_eq_iff.1 h).get? i with ⟨hr, hs⟩ | ⟨a, b, hr, hs, hab⟩
  · simp only [hr, hs, h]
  · simp only [hr, hs, hab.rank_eq]
    rw [Rows.any_kept_congr (fun j row => by simp only [rank_reloaded]) h]
    split_ifs
    · refine Rows.kept_eq_iff.2 ((Rows.kept_eq_iff.1 h).map fun j a b hab => ?_)
      rw [hab.rank_eq]
      split_ifs
      · exact hab.withRank _
      · exact hab
    · exact h

theorem maxRank_eq {t u : Ranking E} (h : t.table.rows.kept = u.table.rows.kept) :
    t.maxRank = u.maxRank := by
  have hkept : ∀ t : Ranking E, t.maxRank =
      t.table.rows.kept.entries.foldl (fun n e => max n (Ranked.rank e.2)) 0 := by
    intro t
    simp only [maxRank, Rows.entries_kept, List.foldl_map, rank_reloaded]
  rw [hkept, hkept, h]

end Settling

namespace Alike

variable {t u : Ranking E}

theorem settle {t u : Table E} (h : Table.Alike t u) (moved : Option InstanceNumber) :
    Alike (settle t moved) (settle u moved) where
  rows := by
    cases moved with
    | none => exact kept_compact_congr h.rows
    | some i => exact kept_compact_congr (kept_makeRoom_congr h.rows i)
  aliases := h.aliases
  next := h.next
  options := h.options

theorem insert (h : Alike t u) (row : E) (requested : Option UInt32) :
    AnswerAlike (fun p q => p.1 = q.1 ∧ Alike p.2 q.2) (t.insert row requested)
      (u.insert row requested) := by
  unfold Ranking.insert
  rw [maxRank_eq h.rows]
  split_ifs
  · exact .error _
  · refine (Table.Alike.add h _).map ?_
    rintro ⟨i, t'⟩ ⟨j, u'⟩ ⟨hi, htu⟩
    obtain rfl : i = j := hi
    exact ⟨rfl, settle htu (some i)⟩

theorem remove (h : Alike t u) (i : InstanceNumber) :
    AnswerAlike (fun p q => Same p.1 q.1 ∧ Alike p.2 q.2) (t.remove i) (u.remove i) :=
  (Table.Alike.remove h i).map fun _ _ hpq => ⟨hpq.1, settle hpq.2 none⟩

theorem reorder (h : Alike t u) (i : InstanceNumber) (rank : UInt32) :
    AnswerAlike Alike (t.reorder i rank) (u.reorder i rank) := by
  unfold Ranking.reorder
  split_ifs
  · exact .error _
  · refine (Table.Alike.row h i).map fun a b hab => settle ?_ (some i)
    have hrows := (Rows.kept_eq_iff.1 h.rows).replace i (hab.withRank rank)
    exact ⟨Rows.kept_eq_iff.2 hrows, h.aliases, h.next, h.options⟩

theorem write (h : Alike t u) (i : InstanceNumber) (origin : Origin) (updates : Updates) :
    AnswerAlike Alike (t.write i origin updates) (u.write i origin updates) :=
  (Table.Alike.write h i origin updates).map fun _ _ htu => settle htu _

theorem rank_get?_eq {t u : Table E} (h : Table.Alike t u) (i : InstanceNumber) :
    (t.get? i).map Ranked.rank = (u.get? i).map Ranked.rank := by
  unfold Table.get?
  rcases h.related.rows.get? i with ⟨ht, hu⟩ | ⟨a, b, ht, hu, hab⟩
  · rw [ht, hu]
  · simp only [ht, hu, Option.map_some, hab.rank_eq]

theorem update (h : Alike t u) (i : InstanceNumber) {f : E → E}
    (hf : ∀ a b, Same a b → Same (f a) (f b)) :
    AnswerAlike Alike (t.update i f) (u.update i f) := by
  refine (Table.Alike.update h i hf).map fun t' u' htu => ?_
  simp only [rank_get?_eq h, rank_get?_eq htu]
  exact settle htu _

theorem afterRemoval (h : Alike t u) {removed removed' : List (InstanceNumber × E)}
    (hremoved : EntriesRelated Same removed removed') {t' u' : Table E}
    (htu : Table.Alike t' u') :
    EntriesRelated Same (t.afterRemoval (removed, t')).1 (u.afterRemoval (removed', u')).1 ∧
      Alike (t.afterRemoval (removed, t')).2 (u.afterRemoval (removed', u')).2 := by
  cases hremoved with
  | nil => exact ⟨.nil, h⟩
  | cons he hrest => exact ⟨.cons he hrest, settle htu none⟩

theorem removeWhere (h : Alike t u) {p : E → Bool} (hp : ∀ row, p (Entity.reloaded row) = p row) :
    EntriesRelated Same (t.removeWhere p).1 (u.removeWhere p).1 ∧
      Alike (t.removeWhere p).2 (u.removeWhere p).2 := by
  obtain ⟨hremoved, htu⟩ := Table.Alike.removeWhere h hp
  exact h.afterRemoval hremoved htu

end Alike

variable {t u : Ranking E}

theorem Alike.step (h : Alike t u) {op : Op E} (hop : op.Blind) : Alike (op.run t) (op.run u) := by
  cases op with
  | insert row requested => exact h.outcome ((h.insert row requested).map fun _ _ hpq => hpq.2)
  | remove i => exact h.outcome ((h.remove i).map fun _ _ hpq => hpq.2)
  | removeWhere p => exact (h.removeWhere hop).2
  | purge now =>
    refine (h.removeWhere fun row => ?_).2
    simp only [Expiring.isExpired, hop row]
  | reorder i rank => exact h.outcome (h.reorder i rank)
  | write i origin updates => exact h.outcome (h.write i origin updates)
  | update i f => exact h.outcome (h.update i hop)
  | setOptions options => exact Table.Alike.setOptions h options

theorem Alike.run (h : Alike t u) {ops : List (Op E)} (hops : ∀ op ∈ ops, op.Blind) :
    Alike (t.run ops) (u.run ops) := by
  unfold Ranking.run
  induction ops generalizing t u with
  | nil => exact h
  | cons op ops ih =>
    rw [List.forall_mem_cons] at hops
    exact ih (h.step hops.1) hops.2

structure AnswersAlike (t u : Ranking E) : Prop where
  rows : Table.RowsEqual t.table.rows.entries u.table.rows.entries
  byRank : Table.RowsEqual t.byRank u.byRank
  parameters : ∀ path, t.table.parameters path = u.table.parameters path
  violations : t.table.violations = u.table.violations
  resolve : ∀ s, t.table.resolve s = u.table.resolve s
  insert : ∀ row requested,
    (t.insert row requested).map Prod.fst = (u.insert row requested).map Prod.fst
  remove : ∀ i, AnswerAlike (fun a b => (a == b) = true) ((t.remove i).map Prod.fst)
    ((u.remove i).map Prod.fst)
  removeWhere : ∀ p : E → Bool, (∀ row, p (Entity.reloaded row) = p row) →
    Table.RowsEqual (t.removeWhere p).1 (u.removeWhere p).1
  reorder : ∀ i rank, (t.reorder i rank).map (fun _ => ()) = (u.reorder i rank).map fun _ => ()
  write : ∀ i origin updates,
    (t.write i origin updates).map (fun _ => ()) = (u.write i origin updates).map fun _ => ()
  update : ∀ i (f : E → E), (∀ a b, Same a b → Same (f a) (f b)) →
    (t.update i f).map (fun _ => ()) = (u.update i f).map fun _ => ()

/-- Rankings between which no operation can tell give the same answers. -/
theorem Alike.answersAlike (h : Alike t u) : AnswersAlike t u where
  rows := (Table.Alike.answersAlike h).rows
  byRank := by
    apply Table.rowsEqual_of_related
    rw [← entries_kept_eq_iff, Ranking.byRank, Ranking.byRank, ← sorted_kept, ← sorted_kept, h.rows]
  parameters := (Table.Alike.answersAlike h).parameters
  violations := (Table.Alike.answersAlike h).violations
  resolve := Table.Alike.resolve h
  insert row requested := (h.insert row requested).map_eq fun _ _ hpq => hpq.1
  remove i := (h.remove i).map fun _ _ hpq => hpq.1.beq
  removeWhere _ hp := Table.rowsEqual_of_related (h.removeWhere hp).1
  reorder i rank := (h.reorder i rank).map_eq fun _ _ _ => rfl
  write i origin updates := (h.write i origin updates).map_eq fun _ _ _ => rfl
  update i _ hf := (h.update i hf).map_eq fun _ _ _ => rfl

end Ranking
end Cwmp
