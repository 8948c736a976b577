import Cwmp.Proofs.Table.Related

/-! # Tables of which rows have gone away

When a row goes away, its alias is left to the first other row that has it. So what an alias stands
for after many rows have gone depends on the table before and on the rows that are left, and not on
the order in which the others went.
-/
namespace Cwmp

/-- What is found first is still so among those that are kept, if it is kept itself. -/
theorem find?_filter_of_find? {α : Type} {l : List α} {p q : α → Bool} {a : α}
    (h : l.find? q = some a) (ha : p a = true) : (l.filter p).find? q = some a := by
  induction l with
  | nil => cases h
  | cons b l ih =>
    rw [List.find?_cons] at h
    cases hq : q b with
    | true =>
      rw [hq] at h
      obtain rfl := Option.some.inj h
      rw [List.filter_cons_of_pos ha, List.find?_cons_of_pos hq]
    | false =>
      rw [hq] at h
      cases hp : p b with
      | true =>
        rw [List.filter_cons_of_pos hp, List.find?_cons_of_neg (by simp [hq])]
        exact ih h
      | false =>
        rw [List.filter_cons_of_neg (by simp [hp])]
        exact ih h

namespace Table

variable {E : Type} [Entity E]

def holders (rows : Rows E) : List (InstanceNumber × Option String) :=
  rows.entries.map fun e => (e.1, Entity.alias? e.2)

def firstHolder? (rows : Rows E) (s : String) : Option InstanceNumber :=
  ((holders rows).find? fun e => e.2 == some s).map Prod.fst

/-- What an alias stands for that stood for the row `i` when there were more rows: the same row if
it is left, and else the first holder. -/
def successor? (rows : Rows E) (s : String) (i : InstanceNumber) : Option InstanceNumber :=
  if i ∈ rows.instances then some i else firstHolder? rows s

/-- The table `t'` is `t` without some of its rows, whatever ranks the others have. -/
structure Shrunk (t t' : Table E) : Prop where
  left : ∃ kept, holders t'.rows = (holders t.rows).filter kept
  aliases : ∀ s, t'.aliases.get? s = (t.aliases.get? s).bind (successor? t'.rows s)
  next : t'.next = t.next
  options : t'.options = t.options

theorem map_fst_holders (rows : Rows E) : (holders rows).map Prod.fst = rows.instances := by
  simp only [holders, List.map_map, Rows.instances, Function.comp_def]

theorem successor?_congr {r r' : Rows E} (h : holders r = holders r') (s : String) :
    successor? r s = successor? r' s := by
  funext i
  simp only [successor?, firstHolder?, ← map_fst_holders, h]

theorem holders_erase (rows : Rows E) (i : InstanceNumber) :
    holders (rows.erase i) = (holders rows).filter fun e => e.1 != i := by
  simp only [holders, Rows.erase, List.filter_map, Function.comp_def]

theorem heir?_eq_firstHolder? (rows : Rows E) (i : InstanceNumber) (s : String) :
    heir? rows i s = firstHolder? (rows.erase i) s := by
  simp only [heir?, firstHolder?, holders, Rows.erase, List.find?_map, List.find?_filter,
    Option.map_map, Function.comp_def, Bool.decide_and, Bool.decide_eq_true]

section Heirs

variable {r r' : Rows E} {kept : InstanceNumber × Option String → Bool}
  (h : holders r' = (holders r).filter kept)

include h

theorem instances_subset_of_holders : r'.instances ⊆ r.instances := by
  rw [← map_fst_holders, ← map_fst_holders, h]
  exact List.map_subset _ (List.filter_subset_self _)

/-- The row to which an alias is left may go away in its turn. -/
theorem successor?_bind (s : String) (i : InstanceNumber) :
    (successor? r s i).bind (successor? r' s) = successor? r' s i := by
  by_cases hi : i ∈ r.instances
  · simp only [successor?, hi, ↓reduceIte, Option.bind_some]
  have hi' : i ∉ r'.instances := fun hmem => hi (instances_subset_of_holders h hmem)
  simp only [successor?, hi, hi', ↓reduceIte, firstHolder?]
  cases hfind : (holders r).find? fun e => e.2 == some s with
  | none =>
    have hnone : (holders r').find? (fun e => e.2 == some s) = none := by
      rw [List.find?_eq_none] at hfind ⊢
      rw [h]
      exact fun e he => hfind e (List.mem_filter.1 he).1
    rw [hnone, Option.map_none, Option.bind_none]
  | some e =>
    rw [Option.map_some, Option.bind_some, successor?]
    split_ifs with he
    · have hkept : kept e = true := by
        rw [← map_fst_holders, h] at he
        obtain ⟨e', he', hfst⟩ := List.mem_map.1 he
        obtain ⟨hmem, hkept⟩ := List.mem_filter.1 he'
        have hnodup : ((holders r).map Prod.fst).Nodup := by
          rw [map_fst_holders]
          exact r.nodup
        rwa [List.inj_on_of_nodup_map hnodup hmem (List.mem_of_find?_eq_some hfind) hfst] at hkept
      rw [h, find?_filter_of_find? hfind hkept, Option.map_some]
    · rfl

end Heirs

section Shrinking

variable {t t' t'' : Table E}

theorem Indexed.mem_instances (h : t.Indexed) {s : String} {i : InstanceNumber}
    (hi : t.aliases.get? s = some i) : i ∈ t.rows.instances := by
  obtain ⟨row, hrow, -⟩ := h.aliases.sound s i hi
  exact Rows.mem_instances_iff.2 ⟨row, hrow⟩

theorem Shrunk.refl (h : t.Indexed) : Shrunk t t where
  left := ⟨fun _ => true, (List.filter_true _).symm⟩
  aliases := by
    intro s
    cases hs : t.aliases.get? s with
    | none => rfl
    | some i => simp only [Option.bind_some, successor?, h.mem_instances hs, ↓reduceIte]
  next := rfl
  options := rfl

theorem Shrunk.trans (h : Shrunk t t') (h' : Shrunk t' t'') : Shrunk t t'' where
  left := by
    obtain ⟨kept, hholders⟩ := h.left
    obtain ⟨kept', hholders'⟩ := h'.left
    exact ⟨_, by rw [hholders', hholders, List.filter_filter]⟩
  aliases := by
    intro s
    obtain ⟨kept, hholders⟩ := h'.left
    rw [h'.aliases, h.aliases, Option.bind_assoc]
    exact congrArg _ (funext (successor?_bind hholders s))
  next := h'.next.trans h.next
  options := h'.options.trans h.options

/-- When a row goes away, an alias that stood for it is left to its heir, and the others stay. -/
theorem Indexed.get?_unindexRow (h : t.Indexed) {i : InstanceNumber} {row : E}
    (hrow : (i, row) ∈ t.rows.entries) (s : String) :
    (unindexRow t.aliases t.rows i row).get? s =
      if t.aliases.get? s = some i then heir? t.rows i s else t.aliases.get? s := by
  have halias : t.aliases.get? s = some i → Entity.alias? row = some s := by
    intro hs
    obtain ⟨holder, hholder, ha⟩ := h.aliases.sound s i hs
    rwa [t.rows.eq_of_mem hrow hholder]
  unfold unindexRow
  cases ha : Entity.alias? row with
  | none =>
    rw [ha] at halias
    rw [if_neg fun hs => Option.some_ne_none s (halias hs).symm]
  | some a =>
    dsimp only
    rw [get?_unindex]
    by_cases hs : t.aliases.get? s = some i
    · obtain rfl : a = s := Option.some.inj (ha.symm.trans (halias hs))
      simp [hs]
    · rw [if_neg hs, if_neg]
      rintro ⟨hsa, rfl⟩
      exact hs hsa

/-- A row goes away. -/
theorem Indexed.shrunk_drop (h : t.Indexed) {i : InstanceNumber} {row : E}
    (hrow : (i, row) ∈ t.rows.entries) : Shrunk t (t.drop i row) where
  left := ⟨fun e => e.1 != i, holders_erase t.rows i⟩
  aliases := by
    intro s
    change (unindexRow t.aliases t.rows i row).get? s =
      (t.aliases.get? s).bind (successor? (t.rows.erase i) s)
    rw [h.get?_unindexRow hrow]
    cases hs : t.aliases.get? s with
    | none => simp
    | some k =>
      have hk := h.mem_instances hs
      simp only [Option.some.injEq, Option.bind_some, successor?, Rows.mem_instances_erase, hk,
        and_true, ne_eq]
      by_cases hki : k = i
      · simp [hki, heir?_eq_firstHolder?]
      · simp [hki]
  next := rfl
  options := rfl

theorem Indexed.shrunk_removeWhere (h : t.Indexed) (p : E → Bool) :
    Shrunk t (t.removeWhere p).2 ∧ (t.removeWhere p).2.Indexed := by
  refine removeWhere_induction (P := fun u => Shrunk t u ∧ u.Indexed) ?_ ⟨.refl h, h⟩
  intro u i row hrow hu
  exact ⟨hu.1.trans (hu.2.shrunk_drop hrow), hu.2.drop hrow⟩

theorem Shrunk.sameIndex (h : Shrunk t t') (h' : Shrunk t t'')
    (hholders : holders t'.rows = holders t''.rows) :
    SameIndex t'.aliases t''.aliases := by
  intro s
  rw [h.aliases, h'.aliases, successor?_congr hholders]

theorem Shrunk.resolve (h : Shrunk t t') {s : String} {i : InstanceNumber}
    (hs : t.resolve s = .ok i) (hi : i ∈ t'.rows.instances) : t'.resolve s = .ok i := by
  rw [resolve_eq_ok_iff] at hs ⊢
  rw [h.aliases, hs, Option.bind_some, successor?, if_pos hi]

end Shrinking

section Ranks

variable [Ranked E] {t t' t'' : Table E}

theorem Reranked.holders_eq (h : Reranked t t') : holders t'.rows = holders t.rows := by
  obtain ⟨f, hf, hrows⟩ := h.rows_eq
  rw [holders, hrows, Rows.map, List.map_map, holders]
  refine List.map_congr_left fun e _ => ?_
  obtain ⟨n, hn⟩ := hf e.1 e.2
  simp only [Function.comp_apply, hn, Ranked.alias?_withRank]

theorem Shrunk.reranked (h : Shrunk t t') (hrank : Reranked t' t'') : Shrunk t t'' where
  left := by
    rw [hrank.holders_eq]
    exact h.left
  aliases := by
    intro s
    rw [hrank.aliases_eq, h.aliases, successor?_congr hrank.holders_eq]
  next := hrank.next_eq.trans h.next
  options := hrank.options_eq.trans h.options

end Ranks

end Table
end Cwmp
