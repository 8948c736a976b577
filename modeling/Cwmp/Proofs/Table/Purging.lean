import Cwmp.Proofs.Table.Nested
import Cwmp.Proofs.Table.RankMoves
import Cwmp.Proofs.Table.Removals

/-! # Deleting what has expired

A row that has expired at some time has so at any later time. Deleting the expired rows twice is
therefore deleting them once, at the later of the two times, and this holds of rankings as well,
since ranks have no part in when a row expires and the rows keep their order.
-/
namespace Cwmp

namespace Expiring

variable {E : Type} [Expiring E] {row : E} {now later : Instant}

theorem isExpired_mono (hle : now ≤ later) (h : isExpired row now = true) :
    isExpired row later = true := by
  unfold isExpired at h ⊢
  cases hexpires : expiresAt row with
  | none => simp [hexpires] at h
  | some t =>
    simp only [hexpires, Option.any_some, decide_eq_true_eq] at h ⊢
    exact Instant.le_trans h hle

theorem not_isExpired_of_le (hle : now ≤ later) (h : isExpired row later = false) :
    isExpired row now = false := by
  by_contra hexpired
  rw [Bool.not_eq_false] at hexpired
  exact Bool.false_ne_true (h.symm.trans (isExpired_mono hle hexpired))

end Expiring

section Filters

variable {α : Type} {p q : α → Bool} (h : ∀ a, p a = true → q a = true) (l : List α)

include h

/-- What is taken out in two goes is what the second question takes out alone, if it takes out
whatever the first one does. -/
theorem filter_append_filter_perm :
    (l.filter p ++ (l.filter fun a => !p a).filter q).Perm (l.filter q) := by
  have hfirst : (l.filter q).filter p = l.filter p := by
    rw [List.filter_filter]
    refine List.filter_congr fun a _ => ?_
    cases hp : p a with
    | true => exact h a hp
    | false => rfl
  have hsplit := List.filter_append_perm p (l.filter q)
  rwa [hfirst, List.filter_comm] at hsplit

theorem filter_not_filter_not :
    ((l.filter fun a => !p a).filter fun a => !q a) = l.filter fun a => !q a := by
  rw [List.filter_filter]
  refine List.filter_congr fun a _ => ?_
  cases hp : p a with
  | true => simp [h a hp]
  | false => simp

end Filters

variable {E : Type} [Entity E]

omit [Entity E] in
theorem Rows.Related.of_entries_eq {r r' : Rows E} (h : r.entries = r'.entries) :
    Rows.Related Eq r r' := by
  rw [Rows.Related, EntriesRelated, h, List.forall₂_same]
  exact fun _ _ => ⟨rfl, rfl⟩

namespace Table

/-- The table `t'` is `t` without the rows of which `p` holds, which are `removed`, whatever ranks
the others have. -/
structure Cleared (t : Table E) (p : E → Bool) (removed : List (InstanceNumber × E))
    (t' : Table E) : Prop where
  removed_eq : removed = t.rows.entries.filter fun e => p e.2
  instances_eq : t'.rows.instances = (t.rows.entries.filter fun e => !p e.2).map Prod.fst
  next_eq : t'.next = t.next
  options_eq : t'.options = t.options
  /-- Looking rows up by alias agrees with the rows that are left. -/
  aliases : t'.AliasesExact
  /-- An alias that stood for a row that is left still does. -/
  resolve : ∀ s i, t.resolve s = .ok i → i ∈ t'.rows.instances → t'.resolve s = .ok i
  none_left : ∀ e ∈ t'.rows.entries, p e.2 = false

variable {t : Table E} {p q : E → Bool}

theorem removeWhere_of_none (h : ∀ e ∈ t.rows.entries, p e.2 = false) :
    t.removeWhere p = ([], t) := by
  have hnone : t.rows.entries.filter (fun e => p e.2) = [] :=
    List.filter_eq_nil_iff.2 fun e he => by simp [h e he]
  simp only [removeWhere, hnone, List.foldl_nil]

theorem Indexed.cleared (h : t.Indexed) (p : E → Bool) :
    Cleared t p (t.removeWhere p).1 (t.removeWhere p).2 := by
  obtain ⟨hshrunk, hindexed⟩ := h.shrunk_removeWhere p
  exact {
    removed_eq := rfl
    instances_eq := by rw [Rows.instances, entries_removeWhere]
    next_eq := hshrunk.next
    options_eq := hshrunk.options
    aliases := hindexed.aliasesExact
    resolve := fun _ _ hs hi => hshrunk.resolve hs hi
    none_left := fun _ he => (mem_entries_removeWhere.1 he).2 }

/-- Rows that are deleted in two goes might as well be deleted in one. -/
theorem Indexed.removeWhere_removeWhere (h : t.Indexed) (hpq : ∀ row, p row = true → q row = true) :
    Related Eq ((t.removeWhere p).2.removeWhere q).2 (t.removeWhere q).2 ∧
      ((t.removeWhere p).1 ++ ((t.removeWhere p).2.removeWhere q).1).Perm
        (t.removeWhere q).1 := by
  obtain ⟨hfirst, hindexed⟩ := h.shrunk_removeWhere p
  have hboth := hfirst.trans (hindexed.shrunk_removeWhere q).1
  have honce := (h.shrunk_removeWhere q).1
  have himp : ∀ e : InstanceNumber × E, p e.2 = true → q e.2 = true := fun e => hpq e.2
  have hentries : ((t.removeWhere p).2.removeWhere q).2.rows.entries =
      (t.removeWhere q).2.rows.entries := by
    rw [entries_removeWhere, entries_removeWhere, entries_removeWhere]
    exact filter_not_filter_not himp t.rows.entries
  constructor
  · exact ⟨.of_entries_eq hentries, hboth.sameIndex honce (by rw [holders, hentries, holders]),
      hboth.next.trans honce.next.symm, hboth.options.trans honce.options.symm⟩
  · have hsecond : ((t.removeWhere p).2.removeWhere q).1 =
        (t.rows.entries.filter fun e => !p e.2).filter fun e => q e.2 := by
      rw [← entries_removeWhere]
      rfl
    rw [hsecond]
    exact filter_append_filter_perm himp t.rows.entries

end Table

namespace Ranking

variable [Ranked E] {t : Ranking E} {p q : E → Bool}

theorem removed_eq (t : Ranking E) (p : E → Bool) :
    (t.removeWhere p).1 = (t.table.removeWhere p).1 := by
  unfold removeWhere afterRemoval
  split
  next htable => rw [htable]
  next removed table _ htable => rw [htable]

theorem Dense.removeWhere_eq (h : t.Dense) (p : E → Bool) :
    (t.removeWhere p).2 = settle (t.table.removeWhere p).2 none := by
  rcases removeWhere_table t p with ⟨hrank, htable⟩ | hrank
  · rw [hrank, htable, h.settle_eq]
  · exact hrank

theorem Dense.entries_removeWhere (h : t.Dense) (p : E → Bool) :
    (t.removeWhere p).2.table.rows.entries =
      (t.table.rows.entries.filter fun e => !p e.2).map (ranked (t.removeWhere p).2.order) := by
  have horder : (t.removeWhere p).2.order = orderOf (t.table.removeWhere p).2.rows := by
    rw [h.removeWhere_eq]
    exact order_of_compact rfl
  rw [horder, h.removeWhere_eq, ← Table.entries_removeWhere]
  rfl

theorem Dense.dense_removeWhere (h : t.Dense) (p : E → Bool) : (t.removeWhere p).2.Dense := by
  rw [h.removeWhere_eq]
  exact dense_settle _ none

theorem Dense.shrunk_removeWhere (h : t.Dense) (hindexed : t.table.Indexed) (p : E → Bool) :
    Table.Shrunk t.table (t.removeWhere p).2.table ∧ (t.removeWhere p).2.table.Indexed := by
  obtain ⟨hshrunk, hremoved⟩ := hindexed.shrunk_removeWhere p
  have hrank := reranked_settle (t.table.removeWhere p).2 none
  rw [h.removeWhere_eq]
  exact ⟨hshrunk.reranked hrank, hrank.indexed hremoved⟩

theorem ranked_ranked (order order' : List InstanceNumber) (e : InstanceNumber × E) :
    ranked order (ranked order' e) = ranked order e := by
  simp only [ranked, Ranked.withRank_withRank]

theorem map_fst_map_ranked (order : List InstanceNumber) (l : List (InstanceNumber × E)) :
    (l.map (ranked order)).map Prod.fst = l.map Prod.fst := by
  rw [List.map_map]
  rfl

theorem filter_map_ranked (hp : ∀ row n, p (Ranked.withRank row n) = p row)
    (order : List InstanceNumber) (l : List (InstanceNumber × E)) :
    ((l.map (ranked order)).filter fun e => p e.2) =
      (l.filter fun e => p e.2).map (ranked order) := by
  simp only [List.filter_map, Function.comp_def, ranked, hp]

theorem Dense.cleared (h : t.Dense) (hindexed : t.table.Indexed)
    (hp : ∀ row n, p (Ranked.withRank row n) = p row) :
    Table.Cleared t.table p (t.removeWhere p).1 (t.removeWhere p).2.table := by
  obtain ⟨hshrunk, hremoved⟩ := h.shrunk_removeWhere hindexed p
  exact {
    removed_eq := removed_eq t p
    instances_eq := by rw [Rows.instances, h.entries_removeWhere, map_fst_map_ranked]
    next_eq := hshrunk.next
    options_eq := hshrunk.options
    aliases := hremoved.aliasesExact
    resolve := fun _ _ hs hi => hshrunk.resolve hs hi
    none_left := by
      intro e he
      rw [h.entries_removeWhere] at he
      obtain ⟨old, hold, rfl⟩ := List.mem_map.1 he
      simpa [ranked, hp] using (List.mem_filter.1 hold).2 }

section Twice

variable (h : t.Dense) (hpq : ∀ row, p row = true → q row = true)
  (hq : ∀ row n, q (Ranked.withRank row n) = q row)

include h hpq hq

theorem Dense.order_removeWhere_removeWhere :
    ((t.removeWhere p).2.removeWhere q).2.order = (t.removeWhere q).2.order := by
  rw [(h.dense_removeWhere p).order_removeWhere, h.order_removeWhere, h.order_removeWhere,
    List.filter_filter]
  refine List.filter_congr fun i hi => ?_
  obtain ⟨row, hrow⟩ := Rows.mem_instances_iff.1 (mem_order.1 hi)
  have hget : t.table.get? i = some row := Rows.get?_eq_some_iff.2 hrow
  cases hp : p row with
  | true => simp [hget, hp, hpq row hp]
  | false =>
    have hkept : (i, row) ∈ t.table.rows.entries.filter fun e => !p e.2 :=
      List.mem_filter.2 ⟨hrow, by simp [hp]⟩
    have hleft := List.mem_map_of_mem (f := ranked (t.removeWhere p).2.order) hkept
    rw [← h.entries_removeWhere] at hleft
    have hget' : (t.removeWhere p).2.table.get? i = some _ := Rows.get?_eq_some_iff.2 hleft
    simp [hget, hget', hp, hq]

theorem Dense.entries_removeWhere_removeWhere :
    ((t.removeWhere p).2.removeWhere q).2.table.rows.entries =
      (t.removeWhere q).2.table.rows.entries := by
  have hnot : ∀ (row : E) n, (!q (Ranked.withRank row n)) = !q row := fun row n => by rw [hq]
  rw [(h.dense_removeWhere p).entries_removeWhere, h.entries_removeWhere, h.entries_removeWhere,
    h.order_removeWhere_removeWhere hpq hq, filter_map_ranked (p := fun row => !q row) hnot,
    filter_not_filter_not fun e : InstanceNumber × E => hpq e.2, List.map_map]
  exact List.map_congr_left fun e _ => ranked_ranked _ _ e

/-- Rows that are deleted in two goes might as well be deleted in one, ranks being what they are
after the second. -/
theorem Dense.removeWhere_removeWhere (hindexed : t.table.Indexed) :
    Table.Related Eq ((t.removeWhere p).2.removeWhere q).2.table (t.removeWhere q).2.table ∧
      (((t.removeWhere p).1 ++ ((t.removeWhere p).2.removeWhere q).1).map Prod.fst).Perm
        ((t.removeWhere q).1.map Prod.fst) := by
  obtain ⟨hfirst, hremoved⟩ := h.shrunk_removeWhere hindexed p
  have hboth := hfirst.trans ((h.dense_removeWhere p).shrunk_removeWhere hremoved q).1
  have honce := (h.shrunk_removeWhere hindexed q).1
  have hentries := h.entries_removeWhere_removeWhere hpq hq
  constructor
  · exact ⟨.of_entries_eq hentries,
      hboth.sameIndex honce (by rw [Table.holders, hentries, Table.holders]),
      hboth.next.trans honce.next.symm, hboth.options.trans honce.options.symm⟩
  · have hsecond : ((t.removeWhere p).2.removeWhere q).1.map Prod.fst =
        ((t.table.rows.entries.filter fun e => !p e.2).filter fun e => q e.2).map Prod.fst := by
      rw [removed_eq, Table.removeWhere, h.entries_removeWhere, filter_map_ranked hq,
        map_fst_map_ranked]
    rw [List.map_append, hsecond, removed_eq, removed_eq, ← List.map_append]
    exact (filter_append_filter_perm (fun e : InstanceNumber × E => hpq e.2) _).map Prod.fst

end Twice

theorem removeWhere_of_none (h : ∀ e ∈ t.table.rows.entries, p e.2 = false) :
    t.removeWhere p = ([], t) := by
  simp only [removeWhere, Table.removeWhere_of_none h, afterRemoval]

end Ranking

/-- What a purge at some time makes of a table, and a second one after it. -/
structure Table.PurgeExact [Expiring E] (t : Table E) (now : Instant) : Prop where
  cleared : Cleared t (Expiring.isExpired · now) (t.purge now).1 (t.purge now).2
  /-- The rows that are left are in their order and as they were. -/
  entries_eq : (t.purge now).2.rows.entries =
    t.rows.entries.filter fun e => !Expiring.isExpired e.2 now
  /-- Purging at an earlier time does nothing more. -/
  earlier : ∀ time, time ≤ now → (t.purge now).2.purge time = ([], (t.purge now).2)
  /-- Purging at a later time does what it would have done alone. -/
  later : ∀ time, now ≤ time →
    Related Eq ((t.purge now).2.purge time).2 (t.purge time).2 ∧
      ((t.purge now).1 ++ ((t.purge now).2.purge time).1).Perm (t.purge time).1

structure Ranking.PurgeExact [Ranked E] [Expiring E] (t : Ranking E) (now : Instant) : Prop where
  cleared : Table.Cleared t.table (Expiring.isExpired · now) (t.purge now).1 (t.purge now).2.table
  /-- The rows that are left are in their order and as they were, but for their ranks. -/
  entries_eq : (t.purge now).2.table.rows.entries =
    (t.table.rows.entries.filter fun e => !Expiring.isExpired e.2 now).map
      (ranked (t.purge now).2.order)
  /-- The ranks are 1, 2, … without gaps. -/
  dense : (t.purge now).2.Dense
  /-- They give the order in which the rows were asked before. -/
  order_eq : (t.purge now).2.order =
    t.order.filter fun i => !(t.table.get? i).any (Expiring.isExpired · now)
  /-- Purging at an earlier time does nothing more. -/
  earlier : ∀ time, time ≤ now → (t.purge now).2.purge time = ([], (t.purge now).2)
  /-- Purging at a later time does what it would have done alone. -/
  later : ∀ time, now ≤ time →
    Table.Related Eq ((t.purge now).2.purge time).2.table (t.purge time).2.table ∧
      (((t.purge now).1 ++ ((t.purge now).2.purge time).1).map Prod.fst).Perm
        ((t.purge time).1.map Prod.fst)

theorem Table.Indexed.purgeExact [Expiring E] {t : Table E} (h : t.Indexed) (now : Instant) :
    t.PurgeExact now where
  cleared := h.cleared _
  entries_eq := entries_removeWhere t _
  earlier _ hle := removeWhere_of_none fun e he =>
    Expiring.not_isExpired_of_le hle ((h.cleared _).none_left e he)
  later _ hle := h.removeWhere_removeWhere fun _ => Expiring.isExpired_mono hle

/-- Rows whose ranks have no part in when they expire. -/
theorem Ranking.Dense.purgeExact [Ranked E] [Expiring E] {t : Ranking E} (h : t.Dense)
    (hindexed : t.table.Indexed)
    (hexpires : ∀ (row : E) n, Expiring.expiresAt (Ranked.withRank row n) = Expiring.expiresAt row)
    (now : Instant) : t.PurgeExact now := by
  have hrank : ∀ time (row : E) n, Expiring.isExpired (Ranked.withRank row n) time =
      Expiring.isExpired row time := by
    intro time row n
    rw [Expiring.isExpired, hexpires, Expiring.isExpired]
  have hcleared := h.cleared (p := (Expiring.isExpired · now)) hindexed (hrank now)
  exact {
    cleared := hcleared
    entries_eq := h.entries_removeWhere _
    dense := h.dense_removeWhere _
    order_eq := h.order_removeWhere _
    earlier := fun _ hle => removeWhere_of_none fun e he =>
      Expiring.not_isExpired_of_le hle (hcleared.none_left e he)
    later := fun time hle =>
      h.removeWhere_removeWhere (fun _ => Expiring.isExpired_mono hle) (hrank time) hindexed }

/-- After every run that gives no number out twice a purge deletes exactly the rows that have
expired, in the order of the table, and leaves the others in their order and as they were, but for
the ranks of a ranking, which close up. Nothing is left that has expired, the aliases of the others
stand, and of two purges the one at the later time does all that both do. -/
theorem purge_exact :
    (∀ [Expiring E] (t : Table E), t.Initial → ∀ ops, t.FreshRun ops → ∀ now,
      (t.run ops).PurgeExact now) ∧
    ∀ t : Ranking FirewallRule, t.Initial → ∀ ops, t.FreshRun ops → ∀ now,
      (t.run ops).PurgeExact now := by
  constructor
  · intro _ t ht ops hfresh now
    exact (ht.indexed_run hfresh).purgeExact now
  · intro t ht ops hfresh now
    exact (ht.dense_run ops).purgeExact (ht.indexed_run hfresh) (fun _ _ => rfl) now

def newYear : Instant where
  seconds := 1577836800
  nanos := 0

def expiringRules : Doc :=
  .table [(.index 1, .table [(.name "ExpiryDate", .text "2020-01-01T00:00:00Z")]),
    (.index 2, .table [(.name "ExpiryDate", .text "0001-01-01T00:00:00Z")]),
    (.index 3, .table [(.name "ExpiryDate", .text "9999-12-31T23:59:59Z")])]

theorem purge_exact_newYear :
    (∃ t : Table FirewallRule, Table.decode expiringRules = .ok t ∧
      (t.purge newYear).1.map (·.1.number) = [1, 2] ∧ t.PurgeExact newYear) ∧
    ∃ t : Ranking FirewallRule, Ranking.decode expiringRules = .ok t ∧
      (t.purge newYear).1.map (·.1.number) = [1, 2] ∧ t.PurgeExact newYear := by
  have htable : (Table.decode expiringRules).toOption.map (fun t : Table FirewallRule =>
      (t.purge newYear).1.map (·.1.number)) = some [1, 2] := by decide +kernel
  have hranking : (Ranking.decode expiringRules).toOption.map (fun t : Ranking FirewallRule =>
      (t.purge newYear).1.map (·.1.number)) = some [1, 2] := by decide +kernel
  constructor
  · cases hdecode : Table.decode (E := FirewallRule) expiringRules with
    | error fault => simp [hdecode, Except.toOption] at htable
    | ok t =>
      rw [hdecode] at htable
      exact ⟨t, rfl, Option.some.inj htable, purge_exact.1 t (.loaded hdecode) [] trivial newYear⟩
  · cases hdecode : Ranking.decode (E := FirewallRule) expiringRules with
    | error fault => simp [hdecode, Except.toOption] at hranking
    | ok t =>
      rw [hdecode] at hranking
      exact ⟨t, rfl, Option.some.inj hranking,
        (purge_exact (E := FirewallRule)).2 t (.loaded hdecode) [] trivial newYear⟩

end Cwmp
