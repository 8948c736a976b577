import Cwmp.Proofs.Entity.Same
import Cwmp.Proofs.Table.RankMoves

/-! # Tables of regular rows

A table comes back from a document with its rows, under their numbers and in their order, and so
does a ranking without gaps. The index of aliases and the next number are made anew of the rows.
-/
namespace Cwmp

namespace Rows

variable {E : Type}

theorem map_map (r : Rows E) (f g : InstanceNumber → E → E) :
    (r.map f).map g = r.map fun i row => g i (f i row) := by
  simp [map, Function.comp_def]

theorem map_eq_self {r : Rows E} {f : InstanceNumber → E → E}
    (h : ∀ i row, (i, row) ∈ r.entries → f i row = row) : r.map f = r := by
  rw [map_congr h]
  simp [map]

theorem alike_iff_of_nil [BEq E] {a b : Rows E} (h : a.entries = []) :
    a.alike b = true ↔ b.entries = [] := by
  simp [alike, size, h, eq_comm (a := 0)]

theorem alike_of_map_eq [BEq E] {a b : Rows E} {f : E → E}
    (hf : ∀ row row', f row = f row' → (row == row') = true)
    (h : a.map (fun _ => f) = b.map fun _ => f) : a.alike b = true := by
  have hentries : (a.map fun _ => f).entries = (b.map fun _ => f).entries := by rw [h]
  simp only [alike, Bool.and_eq_true, List.all_eq_true, beq_iff_eq]
  refine ⟨by simpa [size, map] using congrArg List.length hentries, ?_⟩
  rintro ⟨i, row⟩ hmem
  have hmap : (i, f row) ∈ (b.map fun _ => f).entries := by
    rw [← hentries, mem_entries_map]
    exact ⟨row, hmem, rfl⟩
  obtain ⟨row', hrow', heq⟩ := mem_entries_map.1 hmap
  simp [get?_eq_some_iff.2 hrow', hf row row' heq.symm]

end Rows

namespace Table

variable {E : Type} [Entity E] [BEq E] [Regular E]

/-- Rows are read after others, each under its number. -/
theorem loadRows_encode {entries : List (InstanceNumber × E)} :
    ∀ (rows : Rows E), (∀ i row, (i, row) ∈ entries → Entity.Tidy row) →
      (rows.instances ++ entries.map Prod.fst).Nodup → ∃ rows',
        loadRows rows (entries.map fun (i, row) => (.index i.number, Codec.encode row)) =
          .ok rows' ∧
        rows'.entries = rows.entries ++ entries.map fun e => (e.1, Entity.reloaded e.2) := by
  induction entries with
  | nil => exact fun _ _ _ => ⟨_, rfl, by simp⟩
  | cons e rest ih =>
    obtain ⟨i, row⟩ := e
    intro rows htidy hnodup
    have hdecode : Codec.decode (Codec.encode row) = .ok (Entity.reloaded row) :=
      Entity.decode_encode (htidy i row List.mem_cons_self)
    have hnew : i ∉ rows.instances := fun hmem =>
      (List.nodup_append.1 hnodup).2.2 i hmem i List.mem_cons_self rfl
    have hentries : (rows.insert i (Entity.reloaded row)).entries =
        rows.entries ++ [(i, Entity.reloaded row)] := Rows.entries_insert hnew
    obtain ⟨rows', hload, hrows'⟩ := ih (rows.insert i (Entity.reloaded row))
      (fun j other hmem => htidy j other (List.mem_cons_of_mem _ hmem))
      (by simpa [Rows.instances, hentries] using hnodup)
    refine ⟨rows', ?_, by simp [hrows', hentries]⟩
    simp only [List.map_cons, loadRows, InstanceNumber.ofNat?_number, hdecode]
    exact hload

def Tidy (t : Table E) : Prop :=
  ∀ i row, (i, row) ∈ t.rows.entries → Entity.Tidy row

def reloaded (t : Table E) : Table E :=
  ofRows (t.rows.map fun _ => Entity.reloaded)

theorem decode_encode {t : Table E} (h : t.Tidy) : decode (encode t) = .ok t.reloaded := by
  obtain ⟨rows, hload, hentries⟩ := loadRows_encode .empty h (by
    simpa [Rows.empty, Rows.instances] using t.rows.nodup)
  have hrows : rows = t.rows.map fun _ => Entity.reloaded := by
    cases rows
    simp only [Rows.empty, List.nil_append] at hentries
    simp only [Rows.map, hentries]
  change (loadRows .empty _).map _ = _
  rw [hload, hrows]
  rfl

instance : Nested (Table E) where
  IsEmpty t := t.rows.entries = []
  Tidy := Tidy
  reloaded := reloaded
  beq_iff_isEmpty h := Rows.alike_iff_of_nil h
  decode_encode := decode_encode
  beq_of_reloaded_eq h := Rows.alike_of_map_eq (fun _ _ => Entity.Same.beq) (congrArg Table.rows h)
  reloaded_reloaded t := by simp [reloaded, ofRows, Rows.map_map]

end Table

namespace Ranking

variable {E : Type} [Entity E] [Ranked E]

theorem Dense.compact_eq {t : Ranking E} (h : t.Dense) : compact t.table.rows = t.table.rows := by
  unfold compact
  refine Rows.map_eq_self fun i row hmem => ?_
  have hrank : (Ranked.rank row).toNat = t.order.idxOf i + 1 := h.rankOf_eq hmem
  change Ranked.withRank row (UInt32.ofNat (t.order.idxOf i + 1)) = row
  rw [← hrank, UInt32.ofNat_toNat, Ranked.withRank_rank]

theorem Dense.settle_eq {t : Ranking E} (h : t.Dense) : settle t.table none = t := by
  change Ranking.mk { t.table with rows := compact t.table.rows } = t
  rw [h.compact_eq]

theorem Dense.of_map {t u : Ranking E} {f : InstanceNumber → E → E} (h : t.Dense)
    (hrows : u.table.rows = t.table.rows.map f)
    (hf : ∀ e ∈ t.table.rows.entries, Ranked.rank (f e.1 e.2) = Ranked.rank e.2) : u.Dense := by
  have hranks : (u.byRank).map rankOf = t.byRank.map rankOf := by
    rw [byRank, hrows, sorted_map hf, List.map_map]
    refine List.map_congr_left fun e he => ?_
    exact congrArg UInt32.toNat (hf e (t.byRank_perm.mem_iff.1 he))
  rw [Dense, hranks, h, hrows]
  simp [Rows.size, Rows.map]

variable [BEq E] [Regular E]

def Tidy (t : Ranking E) : Prop :=
  t.table.Tidy ∧ t.Dense

def reloaded (t : Ranking E) : Ranking E where
  table := t.table.reloaded

theorem rank_reloaded (row : E) : Ranked.rank (Entity.reloaded row) = Ranked.rank row :=
  (Entity.same_reloaded row).rank_eq

theorem Dense.reloaded {t : Ranking E} (h : t.Dense) : t.reloaded.Dense :=
  h.of_map (f := fun _ => Entity.reloaded) rfl fun _ _ => rank_reloaded _

theorem decode_encode {t : Ranking E} (h : t.Tidy) : decode (encode t) = .ok t.reloaded := by
  unfold decode encode
  rw [Table.decode_encode h.1]
  exact congrArg Except.ok h.2.reloaded.settle_eq

instance : Nested (Ranking E) where
  IsEmpty t := t.table.rows.entries = []
  Tidy := Tidy
  reloaded := reloaded
  beq_iff_isEmpty h := Rows.alike_iff_of_nil h
  decode_encode := decode_encode
  beq_of_reloaded_eq h := Rows.alike_of_map_eq (fun _ _ => Entity.Same.beq)
    (congrArg (fun t => t.table.rows) h)
  reloaded_reloaded t := by simp [reloaded, Table.reloaded, Table.ofRows, Rows.map_map]

end Ranking
end Cwmp
