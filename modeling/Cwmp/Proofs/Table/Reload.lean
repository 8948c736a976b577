import Cwmp.Proofs.Objects.Regular
import Cwmp.Proofs.Table.InstanceNumbers
import Cwmp.Proofs.Table.RankAlike

/-! # Tables that are written to documents and read back

Documents hold the rows of a table. The index of aliases and the next number are made anew of them,
and the options are set again. What is made anew is what was there before if no alias has two
holders and the next number is the one after the largest in use; the table then goes on as if it had
not been read back.
-/
namespace Cwmp

variable {E : Type} [Entity E]

theorem Indexes.get?_eq {x y : AliasIndex} {entries : List (InstanceNumber × E)}
    (hx : Indexes x entries) (hy : Indexes y entries)
    (hone : ∀ s i j, Holds entries s i → Holds entries s j → i = j) (s : String) :
    x.get? s = y.get? s := by
  cases h : x.get? s with
  | some i =>
    obtain ⟨j, hj⟩ := Option.ne_none_iff_exists'.1 (hy.complete s i (hx.sound s i h))
    rw [hj, hone s i j (hx.sound s i h) (hy.sound s j hj)]
  | none =>
    cases h' : y.get? s with
    | none => rfl
    | some j => exact absurd h (hx.complete s j (hy.sound s j h'))

namespace Table

/-- A table that its rows tell: every alias has one holder, and the next number is the one after the
largest in use. -/
structure Rebuildable (t : Table E) : Prop where
  unshared : ∀ s i j, Holds t.rows.entries s i → Holds t.rows.entries s j → i = j
  next_eq : t.next = nextAfter t.rows.instances

theorem rebuildable_of_single {t : Table E} {i : InstanceNumber} {row : E}
    (h : t.rows.entries = [(i, row)]) (hnext : t.next = i.next) : t.Rebuildable where
  unshared := by
    have hholder : ∀ s j, Holds t.rows.entries s j → j = i := by
      rintro s j ⟨other, hmem, -⟩
      rw [h, List.mem_singleton] at hmem
      exact congrArg Prod.fst hmem
    intro s j k hj hk
    rw [hholder s j hj, hholder s k hk]
  next_eq := by
    rw [hnext, Rows.instances, h]
    rfl

variable [BEq E] [Regular E]

/-- The table `u` goes on in the place of `t`. -/
structure Continues (t u : Table E) : Prop where
  aliases : SameIndex t.aliases u.aliases
  next : t.next = u.next
  options : t.options = u.options
  later : ∀ ops : List (Op E), (∀ op ∈ ops, op.Blind) → AnswersAlike (t.run ops) (u.run ops)

variable {t u : Table E}

theorem tidy_of_single {i : InstanceNumber} {row : E} (h : t.rows.entries = [(i, row)])
    (hrow : Entity.Tidy row) : t.Tidy := by
  intro j other hmem
  rw [h, List.mem_singleton] at hmem
  cases hmem
  exact hrow

theorem rowsEqual_reloaded (t : Table E) : RowsEqual t.rows.entries t.reloaded.rows.entries := by
  refine rowsEqual_of_related (entries_kept_eq_iff.1 ?_)
  simp [reloaded, ofRows, Rows.map, Function.comp_def]

theorem holds_reloaded {s : String} {i : InstanceNumber} :
    Holds t.reloaded.rows.entries s i ↔ Holds t.rows.entries s i := by
  simp only [Holds, reloaded, ofRows, Rows.mem_entries_map]
  constructor
  · rintro ⟨_, ⟨row, hrow, rfl⟩, hs⟩
    exact ⟨row, hrow, (Entity.same_reloaded row).alias?_eq ▸ hs⟩
  · rintro ⟨row, hrow, hs⟩
    exact ⟨_, ⟨row, hrow, rfl⟩, (Entity.same_reloaded row).alias?_eq.trans hs⟩

theorem Rebuildable.alike_reloaded (h : t.Rebuildable) (hindexed : t.Indexed) :
    Alike t (t.reloaded.setOptions t.options) where
  rows := by simp [setOptions, reloaded, ofRows, Rows.kept, Rows.map_map]
  aliases := by
    have hreloaded : Indexes t.reloaded.aliases t.rows.entries :=
      (Indexes.indexOf _).congr fun _ _ => holds_reloaded
    exact hindexed.aliases.get?_eq hreloaded h.unshared
  next := by simp [h.next_eq, setOptions, reloaded, ofRows]
  options := rfl

theorem Alike.continues (h : Alike t u) : Continues t u where
  aliases := h.aliases
  next := h.next
  options := h.options
  later _ hops := (h.run hops).answersAlike

end Table

namespace Ranking

variable [Ranked E]

variable [BEq E] [Regular E]

structure Continues (t u : Ranking E) : Prop where
  aliases : Table.SameIndex t.table.aliases u.table.aliases
  next : t.table.next = u.table.next
  options : t.table.options = u.table.options
  later : ∀ ops : List (Op E), (∀ op ∈ ops, op.Blind) → AnswersAlike (t.run ops) (u.run ops)

theorem Alike.continues {t u : Ranking E} (h : Alike t u) : Continues t u where
  aliases := h.aliases
  next := h.next
  options := h.options
  later _ hops := (h.run hops).answersAlike

end Ranking

section Runs

variable [BEq E] [Regular E]

/-- Whatever was done to a table or a ranking: it is written to a document and read back, and has
the same rows under the same numbers and in the same order, if lists have proper items and rankings
have no gaps. If no number in use was given out, no alias is shared and the next number is the one
after the largest in use, then what was read back goes on in the place of what was written, once its
options are set again. -/
theorem reload_run :
    (∀ t : Table E, t.Initial → ∀ ops, (t.run ops).Tidy →
      ∃ u, Table.decode (t.run ops).encode = .ok u ∧
        Table.RowsEqual (t.run ops).rows.entries u.rows.entries ∧
        (t.FreshRun ops → (t.run ops).Rebuildable →
          (t.run ops).Continues (u.setOptions (t.run ops).options))) ∧
    ∀ [Ranked E] (t : Ranking E), t.Initial → ∀ ops, (t.run ops).Tidy →
      ∃ u, Ranking.decode (t.run ops).encode = .ok u ∧
        Table.RowsEqual (t.run ops).table.rows.entries u.table.rows.entries ∧
        (t.FreshRun ops → (t.run ops).table.Rebuildable →
          (t.run ops).Continues (u.setOptions (t.run ops).table.options)) := by
  constructor
  · intro t ht ops htidy
    refine ⟨_, Table.decode_encode htidy, Table.rowsEqual_reloaded _, fun hfresh hrebuild => ?_⟩
    exact (hrebuild.alike_reloaded (ht.indexed_run hfresh)).continues
  · intro _ t ht ops htidy
    refine ⟨_, Ranking.decode_encode htidy, Table.rowsEqual_reloaded _, fun hfresh hrebuild => ?_⟩
    exact Ranking.Alike.continues (hrebuild.alike_reloaded (ht.indexed_run hfresh))

end Runs

theorem entries_oneRule : oneRule.table.rows.entries = [(.first, { aliasText := "cpe-1" })] := by
  change (Ranking.compact ⟨[(.first, { aliasText := "cpe-1" })], by decide⟩ :
    Rows FirewallRule).entries = _
  simp [Ranking.compact, Ranking.sorted, Rows.map]
  rfl

theorem tidy_oneRule : oneRule.Tidy where
  left := by
    have hvalues : ∀ p ∈ Entity.values ({ aliasText := "cpe-1" } : FirewallRule), p.2.Tidy := by
      decide
    exact Table.tidy_of_single entries_oneRule ⟨fun f v hv => hvalues _ hv, trivial⟩
  right := (Ranking.Initial.empty {}).dense.step
    (Ranking.Op.step _ (.insert ({} : FirewallRule) none))

def shortChain : Chain where
  aliasText := "lan"
  rules := oneRule

/-- A table whose row holds a ranking goes on after it was read back, and so does the ranking. -/
theorem reload_run_shortChain :
    let t : Table Chain := Table.empty.run [.add shortChain]
    (∃ u, Table.decode t.encode = .ok u ∧ Table.RowsEqual t.rows.entries u.rows.entries ∧
      t.Continues (u.setOptions t.options)) ∧
    ∃ u, Ranking.decode oneRule.encode = .ok u ∧
      Table.RowsEqual oneRule.table.rows.entries u.table.rows.entries ∧
      oneRule.Continues (u.setOptions oneRule.table.options) := by
  intro t
  have hentries : t.rows.entries = [(.first, shortChain)] := rfl
  constructor
  · have hvalues : ∀ p ∈ Entity.values shortChain, p.2.Tidy := by decide
    have htidy : t.Tidy := Table.tidy_of_single hentries
      ⟨fun f v hv => hvalues _ hv, tidy_oneRule, trivial⟩
    obtain ⟨u, hdecode, hrows, hcontinues⟩ := reload_run.1 .empty (.empty {}) _ htidy
    exact ⟨u, hdecode, hrows, hcontinues ⟨List.not_mem_nil, trivial⟩
      (Table.rebuildable_of_single hentries rfl)⟩
  · obtain ⟨u, hdecode, hrows, hcontinues⟩ := (reload_run (E := FirewallRule)).2 .empty (.empty {})
      [.insert {} none] tidy_oneRule
    exact ⟨u, hdecode, hrows, hcontinues ⟨List.not_mem_nil, trivial⟩
      (Table.rebuildable_of_single entries_oneRule rfl)⟩

def lastTwoMappings : Doc :=
  .table [(.index 4294967294, .table [(.name "Alias", .text "a")]),
    (.index 4294967295, .table [(.name "Alias", .text "b")])]

/-- The row `b` is replaced by a row `c`, which is then deleted. The alias `b` still stands for the
number that both have had, until the table is read back. -/
theorem alias_lost_by_reload : ∃ s t u : Table PortMapping, Table.decode lastTwoMappings = .ok s ∧
    s.run [.add { aliasText := "c" }, .remove .last] = t ∧ t.Tidy ∧ t.Rebuildable ∧
    Table.decode t.encode = .ok u ∧ t.resolve "b" = .ok .last ∧
    (u.setOptions t.options).resolve "b" =
      .error (.aliasNotFound (Entity.pathText PortMapping) "b") := by
  have hdecode : Table.decode lastTwoMappings = .ok (Table.ofRows (E := PortMapping)
      ⟨[({ number := 4294967294 }, { aliasText := "a" }), (.last, { aliasText := "b" })],
        by decide⟩) := rfl
  have hvalues : ∀ p ∈ Entity.values ({ aliasText := "a" } : PortMapping), p.2.Tidy := by decide
  refine ⟨_, _, _, hdecode, rfl, ?_, Table.rebuildable_of_single rfl rfl, rfl, rfl, rfl⟩
  exact Table.tidy_of_single rfl ⟨fun f v hv => hvalues _ hv, trivial⟩

end Cwmp
