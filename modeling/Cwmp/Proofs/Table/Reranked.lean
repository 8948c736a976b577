import Cwmp.Proofs.Entity.Stored
import Cwmp.Proofs.Table.Operations

/-! # Tables that differ in ranks only

Every operation on a ranking acts on its table as an operation on tables does, or not at all, and
then gives new ranks to the rows. What operations on tables preserve, and what does not depend on
ranks, is therefore preserved by operations on rankings.
-/
namespace Cwmp

namespace Table

variable {E : Type} [Entity E] [Ranked E] {s t u : Table E}

/-- The table `t` is `s` with other ranks. -/
structure Reranked (s t : Table E) : Prop where
  rows_eq : ∃ f : InstanceNumber → E → E,
    (∀ i row, ∃ n, f i row = Ranked.withRank row n) ∧ t.rows = s.rows.map f
  aliases_eq : t.aliases = s.aliases
  next_eq : t.next = s.next
  options_eq : t.options = s.options

theorem Reranked.refl (t : Table E) : Reranked t t where
  rows_eq := by
    refine ⟨fun _ row => row, fun _ row => ⟨Ranked.rank row, ?_⟩, by simp [Rows.map]⟩
    exact (Ranked.withRank_rank row).symm
  aliases_eq := rfl
  next_eq := rfl
  options_eq := rfl

theorem Reranked.trans (h : Reranked s t) (h' : Reranked t u) : Reranked s u where
  rows_eq := by
    obtain ⟨f, hf, hs⟩ := h.rows_eq
    obtain ⟨g, hg, ht⟩ := h'.rows_eq
    refine ⟨fun i row => g i (f i row), fun i row => ?_, by simp [ht, hs, Rows.map]⟩
    obtain ⟨m, hm⟩ := hf i row
    obtain ⟨n, hn⟩ := hg i (f i row)
    refine ⟨n, ?_⟩
    change g i (f i row) = _
    rw [hn, hm, Ranked.withRank_withRank]
  aliases_eq := h'.aliases_eq.trans h.aliases_eq
  next_eq := h'.next_eq.trans h.next_eq
  options_eq := h'.options_eq.trans h.options_eq

theorem Reranked.instances_eq (h : Reranked s t) : t.rows.instances = s.rows.instances := by
  obtain ⟨f, -, hrows⟩ := h.rows_eq
  simp [hrows]

theorem Reranked.mem_entries (h : Reranked s t) {i : InstanceNumber} {row : E}
    (hmem : (i, row) ∈ t.rows.entries) :
    ∃ old n, (i, old) ∈ s.rows.entries ∧ row = Ranked.withRank old n := by
  obtain ⟨f, hf, hrows⟩ := h.rows_eq
  rw [hrows] at hmem
  obtain ⟨old, hold, rfl⟩ := Rows.mem_entries_map.1 hmem
  obtain ⟨n, hn⟩ := hf i old
  exact ⟨old, n, hold, hn⟩

theorem Reranked.exists_mem (h : Reranked s t) {i : InstanceNumber} {old : E}
    (hmem : (i, old) ∈ s.rows.entries) :
    ∃ n, (i, Ranked.withRank old n) ∈ t.rows.entries := by
  obtain ⟨f, hf, hrows⟩ := h.rows_eq
  obtain ⟨n, hn⟩ := hf i old
  refine ⟨n, ?_⟩
  rw [hrows, Rows.mem_entries_map]
  exact ⟨old, hmem, hn⟩

end Table

namespace Ranking

open Table (Reranked)

variable {E : Type} [Entity E] [Ranked E]

theorem reranked_of_map (t : Table E) {f : InstanceNumber → E → E}
    (hf : ∀ i row, ∃ n, f i row = Ranked.withRank row n) :
    Reranked t { t with rows := t.rows.map f } :=
  ⟨⟨f, hf, rfl⟩, rfl, rfl, rfl⟩

theorem reranked_compact (t : Table E) : Reranked t { t with rows := compact t.rows } := by
  unfold compact
  exact reranked_of_map t fun _ _ => ⟨_, rfl⟩

theorem reranked_makeRoom (t : Table E) (i : InstanceNumber) :
    Reranked t { t with rows := makeRoom t.rows i } := by
  unfold makeRoom
  cases t.rows.get? i with
  | none => exact .refl t
  | some moved =>
    dsimp only
    split_ifs with hany
    · refine reranked_of_map t fun j row => ?_
      split_ifs
      · exact ⟨_, rfl⟩
      · exact ⟨_, (Ranked.withRank_rank row).symm⟩
    · exact .refl t

theorem reranked_settle (t : Table E) (moved : Option InstanceNumber) :
    Reranked t (settle t moved).table := by
  cases moved with
  | none => exact reranked_compact t
  | some i =>
    exact (reranked_makeRoom t i).trans (reranked_compact { t with rows := makeRoom t.rows i })

theorem reranked_replace {t : Table E} {i : InstanceNumber} {row : E}
    (h : t.rows.get? i = some row) (n : UInt32) :
    Reranked t { t with rows := t.rows.replace i (Ranked.withRank row n) } := by
  have hmap : t.rows.replace i (Ranked.withRank row n) =
      t.rows.map fun j old => if j = i then Ranked.withRank old n else old := by
    apply Rows.map_congr
    intro j old hmem
    split_ifs with hj
    · subst hj
      rw [t.rows.eq_of_mem hmem (Rows.get?_eq_some_iff.1 h)]
    · rfl
  rw [hmap]
  refine reranked_of_map t fun j old => ?_
  split_ifs
  · exact ⟨n, rfl⟩
  · exact ⟨_, (Ranked.withRank_rank old).symm⟩

/-- A step of a ranking is a step of its table that writes the same row, after which the rows get
new ranks. -/
theorem Step.reranked {t t' : Ranking E} {op : Op E} {w : Option InstanceNumber}
    (h : Step t op w t') : ∃ op' s, (op.Fresh t → op'.Fresh t.table) ∧
      Table.Step t.table op' w s ∧ Reranked s t'.table := by
  cases h with
  | refused => exact ⟨.setOptions {}, _, fun _ => trivial, .refused, .refl _⟩
  | inserted h =>
    obtain ⟨-, table, hadd, rfl⟩ := insert_eq_ok_iff.1 h
    exact ⟨.add _, table, fun hfree => hfree, .added hadd, reranked_settle table _⟩
  | removed h =>
    obtain ⟨table, hremove, rfl⟩ := remove_eq_ok_iff.1 h
    exact ⟨.remove _, table, fun _ => trivial, .removed hremove, reranked_settle table none⟩
  | removedWhere p =>
    refine ⟨.removeWhere p, _, fun _ => trivial, .removedWhere p, ?_⟩
    rcases removeWhere_table t p with ⟨hrank, htable⟩ | hrank
    · rw [hrank, htable]
      exact .refl _
    · rw [hrank]
      exact reranked_settle _ none
  | reordered h =>
    obtain ⟨-, row, hrow, rfl⟩ := reorder_eq_ok_iff.1 h
    exact ⟨.setOptions {}, _, fun _ => trivial, .refused,
      (reranked_replace hrow _).trans (reranked_settle _ _)⟩
  | written h =>
    obtain ⟨table, hwrite, rfl⟩ := write_eq_ok_iff.1 h
    exact ⟨.write _ _ _, table, fun _ => trivial, .written hwrite, reranked_settle table _⟩
  | updated h =>
    obtain ⟨table, hupdate, rfl⟩ := update_eq_ok_iff.1 h
    exact ⟨.update _ _, table, fun _ => trivial, .updated hupdate, reranked_settle table _⟩
  | optionsSet options => exact ⟨.setOptions _, _, fun _ => trivial, .optionsSet options, .refl _⟩

/-- The table of a ranking with which a program begins has the rows of such a table, ranked anew. -/
theorem Initial.reranked {t : Ranking E} (h : Initial t) :
    ∃ s : Table E, s.Initial ∧ Reranked s t.table := by
  cases h with
  | empty options => exact ⟨_, .empty options, .refl _⟩
  | loaded hdecode =>
    obtain ⟨s, hs, rfl⟩ := map_eq_ok_iff.1 hdecode
    exact ⟨s, .loaded hs, reranked_settle s none⟩

/-- What begins to hold, does not depend on ranks and is preserved by operations on tables holds
after every run of operations on a ranking. -/
theorem run_induction {P : Table E → Prop} (hinitial : ∀ t : Table E, t.Initial → P t)
    (hstep : ∀ t op w t', Table.Step t op w t' → op.Fresh t → P t → P t')
    (hrank : ∀ s t, Reranked s t → P s → P t) {t : Ranking E} (ht : t.Initial)
    {ops : List (Op E)} (hfresh : t.FreshRun ops) : P (t.run ops).table := by
  obtain ⟨s, hs, hst⟩ := ht.reranked
  refine Along.foldl (P := fun t => P t.table) (fun t op hop ht => ?_) hfresh
    (hrank s t.table hst (hinitial s hs))
  obtain ⟨op', s, hfresh', hs, hrerank⟩ := (op.step t).reranked
  exact hrank s _ hrerank (hstep t.table op' _ s hs (hfresh' hop) ht)

end Ranking
end Cwmp
