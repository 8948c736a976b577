import Cwmp.Proofs.Table.Purging
import Cwmp.Proofs.Table.Violations

/-! # Changes of different rows

A row that is written or deleted leaves the other rows as they are, but an alias that it gives up
may be left to one of them, and one that it takes may be what another has just given up. Still,
changes of two rows commute: no two rows are ever given one alias, and what the two rows give up is
in either order left to the first holder among the other rows.
-/
namespace Cwmp

namespace Rows

variable {E : Type} {r : Rows E} {i j : InstanceNumber}

/-- Rows in which the one numbered `i` has become another one, or is gone. -/
def alter (r : Rows E) (i : InstanceNumber) : Option E → Rows E
  | some row => r.replace i row
  | none => r.erase i

theorem entries_alter (r : Rows E) (i : InstanceNumber) (x : Option E) :
    (r.alter i x).entries = r.entries.filterMap fun e =>
      if e.1 = i then x.map (Prod.mk i) else some e := by
  cases x with
  | none =>
    simp only [alter, erase, Option.map_none, ← List.filterMap_eq_filter]
    refine List.filterMap_congr fun e _ => ?_
    by_cases he : e.1 = i <;> simp [he, Option.guard]
  | some row =>
    simp only [alter, replace, map, Option.map_some, ← List.filterMap_eq_map]
    refine List.filterMap_congr fun e _ => ?_
    by_cases he : e.1 = i <;> simp [he]

/-- Changes of different rows commute. -/
theorem alter_comm (hij : i ≠ j) (x y : Option E) :
    (r.alter i x).alter j y = (r.alter j y).alter i x := by
  suffices hentries : ((r.alter i x).alter j y).entries = ((r.alter j y).alter i x).entries by
    cases hr : (r.alter i x).alter j y
    cases hr' : (r.alter j y).alter i x
    simpa only [mk.injEq, hr, hr'] using hentries
  simp only [entries_alter, List.filterMap_filterMap]
  refine List.filterMap_congr fun e _ => ?_
  by_cases hi : e.1 = i
  · have hj : e.1 ≠ j := hi ▸ hij
    cases x <;> simp [hi, hij]
  · by_cases hj : e.1 = j
    · cases y <;> simp [hj, hij.symm]
    · simp [hi, hj]

theorem mem_entries_alter_of_ne {x : Option E} {row : E} (hij : j ≠ i) :
    (j, row) ∈ (r.alter i x).entries ↔ (j, row) ∈ r.entries := by
  rw [entries_alter, List.mem_filterMap]
  constructor
  · rintro ⟨e, he, heq⟩
    split_ifs at heq with hi
    · obtain ⟨row', -, hpair⟩ := Option.map_eq_some_iff.1 heq
      exact absurd (congrArg Prod.fst hpair).symm hij
    · rwa [← Option.some.inj heq]
  · intro hmem
    exact ⟨(j, row), hmem, by rw [if_neg hij]⟩

theorem get?_alter_of_ne {x : Option E} (hij : j ≠ i) : (r.alter i x).get? j = r.get? j := by
  apply Option.ext
  intro row
  rw [get?_eq_some_iff, get?_eq_some_iff, mem_entries_alter_of_ne hij]

theorem mem_instances_alter_of_ne {x : Option E} (hij : j ≠ i) :
    j ∈ (r.alter i x).instances ↔ j ∈ r.instances := by
  simp only [mem_instances_iff, mem_entries_alter_of_ne hij]

end Rows

variable {E : Type} [Entity E]

inductive RowChange
  | write (origin : Origin) (updates : Updates)
  | remove

namespace RowChange

def on (t : Table E) (i : InstanceNumber) : RowChange → Except ModelError (Table E)
  | write origin updates => t.write i origin updates
  | remove => (t.remove i).map Prod.snd

def left? (row : E) : RowChange → Option E
  | write origin updates => (Entity.write origin updates row).toOption
  | remove => none

end RowChange

namespace Table

variable {r : Rows E} {i j k : InstanceNumber} {s : String} {x y : Option E} {t u v : Table E}

theorem get?_indexRow (index : AliasIndex) (i : InstanceNumber) (row : E) (s : String) :
    (indexRow index i row).get? s =
      if Entity.alias? row = some s then some i else index.get? s := by
  unfold indexRow
  cases Entity.alias? row with
  | none => simp
  | some a => simp only [get?_insert, Option.some.injEq, eq_comm]

theorem successor?_of_mem (hk : k ∈ r.instances) : successor? r s k = some k := by
  rw [successor?, if_pos hk]

theorem mem_of_successor? (hs : successor? r s i = some k) : k ∈ r.instances := by
  unfold successor? at hs
  split_ifs at hs with hi
  · exact Option.some.inj hs ▸ hi
  · obtain ⟨e, he, rfl⟩ := Option.map_eq_some_iff.1 hs
    rw [← map_fst_holders]
    exact List.mem_map_of_mem (List.mem_of_find?_eq_some he)

theorem firstHolder?_alter (hx : x.bind Entity.alias? ≠ some s) :
    firstHolder? (r.alter i x) s = firstHolder? (r.erase i) s := by
  cases x with
  | none => rfl
  | some row =>
    have hrow : Entity.alias? row ≠ some s := hx
    simp only [firstHolder?, holders, Rows.alter, Rows.replace, Rows.map, Rows.erase,
      List.find?_map, List.find?_filter, Option.map_map, Function.comp_def]
    congr 2
    funext e
    rw [Bool.eq_iff_iff]
    by_cases he : e.1 = i <;> simp [he, hrow]

theorem successor?_alter (hx : x.bind Entity.alias? ≠ some s) (hk : k ≠ i) :
    successor? (r.alter i x) s k = successor? (r.erase i) s k := by
  have hmem : k ∈ (r.alter i x).instances ↔ k ∈ (r.erase i).instances :=
    (Rows.mem_instances_alter_of_ne hk).trans
      (Rows.mem_instances_alter_of_ne (x := none) hk).symm
  simp only [successor?, firstHolder?_alter hx, hmem]

/-- The table `u` is `t` after the row `i` has become another one, or is gone. -/
structure Changed (t : Table E) (i : InstanceNumber) (x : Option E) (u : Table E) : Prop where
  rows : u.rows = t.rows.alter i x
  aliases : ∀ s, u.aliases.get? s = if x.bind Entity.alias? = some s then some i
    else (t.aliases.get? s).bind (successor? (t.rows.erase i) s)
  /-- The row has taken no alias that another one has. -/
  sole : ∀ s, x.bind Entity.alias? = some s → ∀ k, Holds t.rows.entries s k → k = i
  next : u.next = t.next
  options : u.options = t.options
  indexed : u.Indexed

theorem Indexed.changed_drop (h : t.Indexed) {row : E} (hrow : (i, row) ∈ t.rows.entries) :
    Changed t i none (t.drop i row) where
  rows := rfl
  aliases := (h.shrunk_drop hrow).aliases
  sole := by simp
  next := rfl
  options := rfl
  indexed := h.drop hrow

theorem Indexed.get?_of_sole (h : t.Indexed) (hi : Holds t.rows.entries s i)
    (hsole : ∀ k, Holds t.rows.entries s k → k = i) : t.aliases.get? s = some i := by
  obtain ⟨k, hk⟩ := Option.ne_none_iff_exists'.1 (h.aliases.complete s i hi)
  rw [hk, hsole k (h.aliases.sound s k hk)]

theorem Indexed.bind_successor? (h : t.Indexed) (hi : ¬ Holds t.rows.entries s i) :
    (t.aliases.get? s).bind (successor? (t.rows.erase i) s) = t.aliases.get? s := by
  cases hs : t.aliases.get? s with
  | none => rfl
  | some k =>
    have hk : k ≠ i := by
      rintro rfl
      exact hi (h.aliases.sound s k hs)
    exact successor?_of_mem (Rows.mem_instances_erase.2 ⟨hk, h.mem_instances hs⟩)

/-- The index after the row `i` was replaced by one that takes no alias of another row. -/
theorem Indexed.aliases_commit (h : t.Indexed) {old row : E} (hold : (i, old) ∈ t.rows.entries)
    (hsole : ∀ s, Entity.alias? row = some s → ∀ k, Holds t.rows.entries s k → k = i)
    (s : String) : (t.commit i old row).aliases.get? s =
      if Entity.alias? row = some s then some i
      else (t.aliases.get? s).bind (successor? (t.rows.erase i) s) := by
  rw [Table.commit]
  by_cases halias : Entity.alias? old = Entity.alias? row
  · simp only [if_pos halias]
    have hold_iff : Holds t.rows.entries s i ↔ Entity.alias? row = some s := by
      rw [← halias]
      constructor
      · rintro ⟨other, hother, ha⟩
        rwa [t.rows.eq_of_mem hold hother]
      · exact fun hs => ⟨old, hold, hs⟩
    split_ifs with hs
    · exact h.get?_of_sole (hold_iff.2 hs) (hsole s hs)
    · exact (h.bind_successor? (hold_iff.not.2 hs)).symm
  · simp only [if_neg halias, get?_indexRow]
    congr 1
    exact (h.shrunk_drop hold).aliases s

theorem Indexed.changed_commit (h : t.Indexed) {old row : E} (hold : (i, old) ∈ t.rows.entries)
    (hobeys : Obeys (t.rows.others (some i)) row) :
    Changed t i (some row) (t.commit i old row) := by
  have hsole : ∀ s, Entity.alias? row = some s → ∀ k, Holds t.rows.entries s k → k = i := by
    rintro s hs k ⟨other, hother, ha⟩
    by_contra hk
    exact hobeys.2 other (Rows.mem_others_some.2 ⟨k, hk, hother⟩) (Or.inl ⟨s, hs, ha⟩)
  exact {
    rows := rfl
    aliases := h.aliases_commit hold hsole
    sole := hsole
    next := rfl
    options := rfl
    indexed := h.commit hold }

/-- What a change that is accepted does. -/
theorem Indexed.changed (h : t.Indexed) {a : RowChange} (hon : a.on t i = .ok u) :
    ∃ old, t.rows.get? i = some old ∧ Changed t i (a.left? old) u := by
  cases a with
  | write origin updates =>
    obtain ⟨old, row, hold, hrow, hfaults, rfl⟩ := write_eq_ok_iff.1 hon
    have hleft : (RowChange.write origin updates).left? old = some row := by
      rw [RowChange.left?, hrow, Except.toOption]
    refine ⟨old, hold, ?_⟩
    rw [hleft]
    exact h.changed_commit (Rows.get?_eq_some_iff.1 hold) ((rowFaults_eq_nil_iff _).1 hfaults)
  | remove =>
    obtain ⟨⟨row, t'⟩, hremove, rfl⟩ := map_eq_ok_iff.1 hon
    obtain ⟨hrow, rfl⟩ := remove_eq_ok_iff.1 hremove
    exact ⟨row, hrow, h.changed_drop (Rows.get?_eq_some_iff.1 hrow)⟩

section Two

variable (h : Changed t i x u)

include h

theorem Changed.holds (hs : x.bind Entity.alias? = some s) : Holds u.rows.entries s i := by
  apply h.indexed.aliases.sound
  rw [h.aliases, if_pos hs]

theorem Changed.alias?_ne (h' : Changed u j y v) (hij : i ≠ j)
    (hs : y.bind Entity.alias? = some s) : x.bind Entity.alias? ≠ some s := by
  intro hx
  exact hij (h'.sole s hs i (h.holds hx))

/-- An alias that none of the two rows has taken is left to the first holder among the others. -/
theorem Changed.aliases_two (h' : Changed u j y v) (hij : i ≠ j) (s : String) :
    v.aliases.get? s = if y.bind Entity.alias? = some s then some j
      else if x.bind Entity.alias? = some s then some i
      else (t.aliases.get? s).bind (successor? ((t.rows.erase i).erase j) s) := by
  rw [h'.aliases, h.aliases]
  by_cases hy : y.bind Entity.alias? = some s
  · rw [if_pos hy, if_pos hy]
  rw [if_neg hy, if_neg hy]
  by_cases hx : x.bind Entity.alias? = some s
  · rw [if_pos hx, if_pos hx, Option.bind_some]
    obtain ⟨row, hrow, -⟩ := h.holds hx
    apply successor?_of_mem
    exact Rows.mem_instances_erase.2 ⟨hij, Rows.mem_instances_iff.2 ⟨row, hrow⟩⟩
  · rw [if_neg hx, if_neg hx, Option.bind_assoc]
    congr 1
    funext k
    rw [← successor?_bind (holders_erase (t.rows.erase i) j)]
    apply Option.bind_congr
    intro heir hheir
    have hne : heir ≠ i := (Rows.mem_instances_erase.1 (mem_of_successor? hheir)).1
    have hrows : u.rows.erase j = (t.rows.erase j).alter i x := by
      rw [h.rows]
      exact Rows.alter_comm hij x none
    rw [hrows, successor?_alter hx hne]
    exact congrArg (successor? · s heir) (Rows.alter_comm hij.symm none none)

end Two

/-- Tables with the same rows in one order, in which every alias stands for the same row and which
go on in the same way. -/
structure Same (t u : Table E) : Prop where
  rows : t.rows = u.rows
  resolve : ∀ s, t.resolve s = u.resolve s
  next : t.next = u.next
  options : t.options = u.options

theorem Changed.same {u' v' : Table E} (hi : Changed t i x u) (hj : Changed u j y v)
    (hj' : Changed t j y u') (hi' : Changed u' i x v') (hij : i ≠ j) : Same v v' where
  rows := by rw [hj.rows, hi.rows, hi'.rows, hj'.rows, Rows.alter_comm hij]
  resolve := by
    intro s
    have herase : (t.rows.erase j).erase i = (t.rows.erase i).erase j :=
      Rows.alter_comm hij.symm none none
    have haliases : v.aliases.get? s = v'.aliases.get? s := by
      rw [hi.aliases_two hj hij, hj'.aliases_two hi' hij.symm, herase]
      by_cases hy : y.bind Entity.alias? = some s
      · rw [if_pos hy, if_neg (hi.alias?_ne hj hij hy), if_pos hy]
      · rw [if_neg hy, if_neg hy]
    rw [resolve, resolve, haliases]
  next := by rw [hj.next, hi.next, hi'.next, hj'.next]
  options := by rw [hj.options, hi.options, hi'.options, hj'.options]

theorem Indexed.same_of_on (h : t.Indexed) {a b : RowChange} (hij : i ≠ j) {t₁ t₂ : Table E}
    (h₁ : (a.on t i >>= fun u => b.on u j) = .ok t₁)
    (h₂ : (b.on t j >>= fun u => a.on u i) = .ok t₂) : Same t₁ t₂ := by
  obtain ⟨u, hu, ht₁⟩ := bind_eq_ok_iff.1 h₁
  obtain ⟨u', hu', ht₂⟩ := bind_eq_ok_iff.1 h₂
  obtain ⟨old, hold, hi⟩ := h.changed hu
  obtain ⟨other, hother, hj⟩ := hi.indexed.changed ht₁
  obtain ⟨other', hother', hj'⟩ := h.changed hu'
  obtain ⟨old', hold', hi'⟩ := hj'.indexed.changed ht₂
  rw [hi.rows, Rows.get?_alter_of_ne hij.symm, hother'] at hother
  rw [hj'.rows, Rows.get?_alter_of_ne hij, hold] at hold'
  obtain rfl := Option.some.inj hother
  obtain rfl := Option.some.inj hold'
  exact hi.same hj hj' hi' hij

end Table

/-- After every run that gives no number out twice, changes of two rows commute: if both of them are
accepted in either order, whether they write a row or delete it, they lead to the same rows in the
same order, every alias stands for the same row, and the next number and the options are the
same. -/
theorem changes_commute (t : Table E) (ht : t.Initial) (ops : List (Table.Op E))
    (hfresh : t.FreshRun ops) (i j : InstanceNumber) (hij : i ≠ j) (a b : RowChange)
    (t₁ t₂ : Table E) (h₁ : (a.on (t.run ops) i >>= fun u => b.on u j) = .ok t₁)
    (h₂ : (b.on (t.run ops) j >>= fun u => a.on u i) = .ok t₂) : t₁.Same t₂ :=
  (ht.indexed_run hfresh).same_of_on hij h₁ h₂

def tripletMappings : Doc :=
  .table [(.index 1, .table [(.name "Alias", .text "triplet")]),
    (.index 2, .table [(.name "Alias", .text "triplet")]),
    (.index 3, .table [(.name "Alias", .text "triplet")])]

/-- The third mapping is renamed and the first one deleted: in either order the alias that they had
is left to the second. -/
theorem changes_commute_triplets :
    let third := InstanceNumber.first.next.next
    let rename := RowChange.write .controller [("Alias", "youngest")]
    ∃ t t₁ t₂ : Table PortMapping, Table.decode tripletMappings = .ok t ∧
      t.resolve "triplet" = .ok third ∧
      (rename.on t third >>= fun u => RowChange.remove.on u .first) = .ok t₁ ∧
      (RowChange.remove.on t .first >>= fun u => rename.on u third) = .ok t₂ ∧
      t₁.resolve "triplet" = .ok InstanceNumber.first.next ∧ t₁.Same t₂ := by
  intro third rename
  have hdecode : Table.decode tripletMappings = .ok (Table.ofRows (E := PortMapping)
      ⟨[({ number := 1 }, { aliasText := "triplet" }),
        ({ number := 2 }, { aliasText := "triplet" }),
        ({ number := 3 }, { aliasText := "triplet" })], by decide⟩) := rfl
  refine ⟨_, _, _, hdecode, rfl, rfl, rfl, rfl, ?_⟩
  exact changes_commute _ (.loaded hdecode) [] trivial third .first (by decide) rename .remove _ _
    rfl rfl

end Cwmp
