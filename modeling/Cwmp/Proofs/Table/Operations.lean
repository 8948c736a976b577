import Cwmp.Table.Ranking
import Cwmp.Proofs.Answers
import Cwmp.Proofs.Table.Rows

/-! # Runs of operations

What a program can do with a table or a ranking, one operation after the other. An operation that is
refused leaves the table as it is. What one operation preserves a run of them preserves.
-/
namespace Cwmp

/-- The state after an operation, which is the state before it if the operation was refused. -/
def outcome {ε S : Type} (s : S) : Except ε S → S
  | .ok s' => s'
  | .error _ => s

/-- A condition that holds of every operation of a run in the state in which the run comes to it. -/
def Along {S O : Type} (step : S → O → S) (ok : S → O → Prop) : S → List O → Prop
  | _, [] => True
  | s, op :: ops => ok s op ∧ Along step ok (step s op) ops

/-- What is preserved by every operation that meets the condition is preserved by the run. -/
theorem Along.foldl {S O : Type} {step : S → O → S} {ok : S → O → Prop} {P : S → Prop}
    (hstep : ∀ s op, ok s op → P s → P (step s op)) {ops : List O} :
    ∀ {s : S}, Along step ok s ops → P s → P (ops.foldl step s) := by
  induction ops with
  | nil => exact fun _ hs => hs
  | cons op ops ih => exact fun hok hs => ih hok.2 (hstep _ op hok.1 hs)

namespace Table

variable {E : Type} [Entity E]

inductive Op (E : Type)
  | add (row : E)
  | remove (i : InstanceNumber)
  | removeWhere (p : E → Bool)
  | purge [Expiring E] (now : Instant)
  | write (i : InstanceNumber) (origin : Origin) (updates : Updates)
  | update (i : InstanceNumber) (f : E → E)
  | setOptions (options : Options)

def Op.run (t : Table E) : Op E → Table E
  | add row => outcome t ((t.add row).map Prod.snd)
  | remove i => outcome t ((t.remove i).map Prod.snd)
  | removeWhere p => (t.removeWhere p).2
  | purge now => (t.purge now).2
  | write i origin updates => outcome t (t.write i origin updates)
  | update i f => outcome t (t.update i f)
  | setOptions options => t.setOptions options

/-- The row that an operation has written, if it was accepted. -/
def Op.written? (t : Table E) : Op E → Option InstanceNumber
  | add row => (t.add row).toOption.map Prod.fst
  | write i origin updates => (t.write i origin updates).toOption.map fun _ => i
  | update i f => (t.update i f).toOption.map fun _ => i
  | _ => none

/-- One step of a table: the operation, the row that it has written and the table after it. -/
inductive Step (t : Table E) : Op E → Option InstanceNumber → Table E → Prop
  | refused {op : Op E} : Step t op none t
  | added {row : E} {i : InstanceNumber} {t' : Table E} :
      t.add row = .ok (i, t') → Step t (.add row) (some i) t'
  | removed {i : InstanceNumber} {row : E} {t' : Table E} :
      t.remove i = .ok (row, t') → Step t (.remove i) none t'
  | removedWhere {op : Op E} (p : E → Bool) : Step t op none (t.removeWhere p).2
  | written {i : InstanceNumber} {origin : Origin} {updates : Updates} {t' : Table E} :
      t.write i origin updates = .ok t' → Step t (.write i origin updates) (some i) t'
  | updated {i : InstanceNumber} {f : E → E} {t' : Table E} :
      t.update i f = .ok t' → Step t (.update i f) (some i) t'
  | optionsSet (options : Options) : Step t (.setOptions options) none (t.setOptions options)

theorem Op.step (t : Table E) (op : Op E) : Step t op (op.written? t) (op.run t) := by
  cases op with
  | add row =>
    simp only [written?, run]
    cases h : t.add row with
    | error error => exact .refused
    | ok result => exact .added h
  | remove i =>
    simp only [written?, run]
    cases h : t.remove i with
    | error error => exact .refused
    | ok result => exact .removed h
  | removeWhere p => exact .removedWhere p
  | purge now => exact .removedWhere fun row => Expiring.isExpired row now
  | write i origin updates =>
    simp only [written?, run]
    cases h : t.write i origin updates with
    | error error => exact .refused
    | ok t' => exact .written h
  | update i f =>
    simp only [written?, run]
    cases h : t.update i f with
    | error error => exact .refused
    | ok t' => exact .updated h
  | setOptions options => exact .optionsSet options

def run (t : Table E) (ops : List (Op E)) : Table E :=
  ops.foldl Op.run t

/-- A table with which a program begins: an empty one, or what a document holds. -/
inductive Initial : Table E → Prop
  | empty (options : Options) : Initial (.empty options)
  | loaded {d : Doc} {t : Table E} : decode d = .ok t → Initial t

/-- The number that the next row gets belongs to no row. It can belong to one only when the numbers
are used up, and the row would then be replaced. -/
def NextIsFree (t : Table E) : Prop :=
  t.next ∉ t.rows.instances

/-- An operation that creates no row under a number in use. -/
def Op.Fresh (t : Table E) : Op E → Prop
  | add _ => t.NextIsFree
  | _ => True

/-- A run that never creates a row under a number in use. -/
def FreshRun (t : Table E) (ops : List (Op E)) : Prop :=
  Along Op.run Op.Fresh t ops

variable {t t' : Table E} {i : InstanceNumber} {row : E}

theorem row_eq_ok_iff : t.row i = .ok row ↔ t.rows.get? i = some row := by
  unfold Table.row Table.get?
  cases t.rows.get? i <;> simp

theorem add_eq_ok_iff : t.add row = .ok (i, t') ↔ t.fullError? = none ∧ i = t.next ∧ ∃ named,
    t.named i row = .ok named ∧ Entity.validate named = [] ∧
      rowError? (t.rows.others none) named = none ∧ t' = { t with
        rows := t.rows.insert i named
        aliases := indexRow t.aliases i named
        next := i.next } := by
  unfold add
  constructor
  · intro h
    split at h
    next => cases h
    next hfull =>
      dsimp only at h
      split at h
      next => cases h
      next named hnamed =>
        split at h
        next hvalid =>
          split at h
          next => cases h
          next herror =>
            obtain ⟨rfl, rfl⟩ := Prod.mk.inj (Except.ok.inj h)
            exact ⟨hfull, rfl, named, hnamed, hvalid, herror, rfl⟩
        next => cases h
  · rintro ⟨hfull, rfl, named, hnamed, hvalid, herror, rfl⟩
    simp only [hfull, hnamed, hvalid, herror]

theorem remove_eq_ok_iff : t.remove i = .ok (row, t') ↔
    t.rows.get? i = some row ∧ t.drop i row = t' := by
  simp only [remove, map_eq_ok_iff, row_eq_ok_iff, Prod.mk.injEq]
  constructor
  · rintro ⟨_, hrow, rfl, rfl⟩
    exact ⟨hrow, rfl⟩
  · rintro ⟨hrow, rfl⟩
    exact ⟨row, hrow, rfl, rfl⟩

theorem write_eq_ok_iff {origin : Origin} {updates : Updates} :
    t.write i origin updates = .ok t' ↔ ∃ old row, t.rows.get? i = some old ∧
      Entity.write origin updates old = .ok row ∧
      rowFaults (t.rows.others (some i)) row (updates.map Prod.fst) = [] ∧
      t.commit i old row = t' := by
  unfold write
  constructor
  · intro h
    split at h
    next => cases h
    next old hold =>
      split at h
      next => cases h
      next row hrow =>
        split at h
        next hfaults =>
          exact ⟨old, row, row_eq_ok_iff.1 hold, hrow, hfaults, Except.ok.inj h⟩
        next => cases h
  · rintro ⟨old, row, hold, hrow, hfaults, rfl⟩
    simp only [row_eq_ok_iff.2 hold, hrow, hfaults]

theorem update_eq_ok_iff {f : E → E} : t.update i f = .ok t' ↔ ∃ old,
    t.rows.get? i = some old ∧ Entity.validate (f old) = [] ∧
      rowError? (t.rows.others (some i)) (f old) = none ∧ t.commit i old (f old) = t' := by
  unfold update
  constructor
  · intro h
    split at h
    next => cases h
    next old hold =>
      dsimp only at h
      split at h
      next hvalid =>
        split at h
        next => cases h
        next herror => exact ⟨old, row_eq_ok_iff.1 hold, hvalid, herror, Except.ok.inj h⟩
      next => cases h
  · rintro ⟨old, hold, hvalid, herror, rfl⟩
    simp only [row_eq_ok_iff.2 hold, hvalid, herror]

/-- What every single deletion preserves is preserved by the deletion of many rows: they are still
there when their turn comes. -/
theorem removeWhere_induction {P : Table E → Prop} {p : E → Bool}
    (hdrop : ∀ t i row, (i, row) ∈ t.rows.entries → P t → P (t.drop i row)) (ht : P t) :
    P (t.removeWhere p).2 := by
  suffices hfold : ∀ (doomed : List (InstanceNumber × E)) (t : Table E),
      (doomed.map Prod.fst).Nodup → (∀ e ∈ doomed, e ∈ t.rows.entries) → P t →
        P (doomed.foldl (fun t e => t.drop e.1 e.2) t) by
    refine hfold _ t ?_ (fun e he => (List.mem_filter.1 he).1) ht
    exact (List.filter_sublist.map Prod.fst).nodup t.rows.nodup
  intro doomed
  induction doomed with
  | nil => exact fun _ _ _ h => h
  | cons e rest ih =>
    intro t hnodup hmem h
    rw [List.map_cons, List.nodup_cons] at hnodup
    refine ih _ hnodup.2 (fun f hf => ?_) (hdrop t e.1 e.2 (hmem e (by simp)) h)
    refine Rows.mem_entries_erase.2 ⟨?_, hmem f (List.mem_cons_of_mem e hf)⟩
    intro heq
    exact hnodup.1 (heq ▸ List.mem_map_of_mem hf)

theorem entries_removeWhere (t : Table E) (p : E → Bool) :
    (t.removeWhere p).2.rows.entries = t.rows.entries.filter fun e => !p e.2 := by
  suffices hfold : ∀ (doomed : List (InstanceNumber × E)) (t : Table E),
      (doomed.foldl (fun t e => t.drop e.1 e.2) t).rows.entries =
        t.rows.entries.filter fun e => !(doomed.map Prod.fst).contains e.1 by
    refine (hfold _ t).trans (List.filter_congr fun e he => ?_)
    congr 1
    rw [Bool.eq_iff_iff]
    simp only [List.contains_iff_mem, List.mem_map, List.mem_filter, Prod.exists]
    constructor
    · rintro ⟨i, row, ⟨hmem, hp⟩, hi⟩
      subst hi
      rwa [t.rows.eq_of_mem he hmem]
    · intro hp
      exact ⟨e.1, e.2, ⟨he, hp⟩, rfl⟩
  intro doomed
  induction doomed with
  | nil => simp
  | cons e rest ih =>
    intro t
    rw [List.foldl_cons, ih]
    simp [drop, Rows.erase, List.filter_filter, Bool.and_comm, bne]

theorem mem_entries_removeWhere {p : E → Bool} {e : InstanceNumber × E} :
    e ∈ (t.removeWhere p).2.rows.entries ↔ e ∈ t.rows.entries ∧ p e.2 = false := by
  rw [entries_removeWhere]
  simp

end Table

namespace Ranking

variable {E : Type} [Entity E] [Ranked E]

inductive Op (E : Type)
  | insert (row : E) (requested : Option UInt32)
  | remove (i : InstanceNumber)
  | removeWhere (p : E → Bool)
  | purge [Expiring E] (now : Instant)
  | reorder (i : InstanceNumber) (rank : UInt32)
  | write (i : InstanceNumber) (origin : Origin) (updates : Updates)
  | update (i : InstanceNumber) (f : E → E)
  | setOptions (options : Options)

def Op.run (t : Ranking E) : Op E → Ranking E
  | insert row requested => outcome t ((t.insert row requested).map Prod.snd)
  | remove i => outcome t ((t.remove i).map Prod.snd)
  | removeWhere p => (t.removeWhere p).2
  | purge now => (t.purge now).2
  | reorder i rank => outcome t (t.reorder i rank)
  | write i origin updates => outcome t (t.write i origin updates)
  | update i f => outcome t (t.update i f)
  | setOptions options => t.setOptions options

def Op.written? (t : Ranking E) : Op E → Option InstanceNumber
  | insert row requested => (t.insert row requested).toOption.map Prod.fst
  | write i origin updates => (t.write i origin updates).toOption.map fun _ => i
  | update i f => (t.update i f).toOption.map fun _ => i
  | _ => none

inductive Step (t : Ranking E) : Op E → Option InstanceNumber → Ranking E → Prop
  | refused {op : Op E} : Step t op none t
  | inserted {row : E} {requested : Option UInt32} {i : InstanceNumber} {t' : Ranking E} :
      t.insert row requested = .ok (i, t') → Step t (.insert row requested) (some i) t'
  | removed {i : InstanceNumber} {row : E} {t' : Ranking E} :
      t.remove i = .ok (row, t') → Step t (.remove i) none t'
  | removedWhere {op : Op E} (p : E → Bool) : Step t op none (t.removeWhere p).2
  | reordered {i : InstanceNumber} {rank : UInt32} {t' : Ranking E} :
      t.reorder i rank = .ok t' → Step t (.reorder i rank) none t'
  | written {i : InstanceNumber} {origin : Origin} {updates : Updates} {t' : Ranking E} :
      t.write i origin updates = .ok t' → Step t (.write i origin updates) (some i) t'
  | updated {i : InstanceNumber} {f : E → E} {t' : Ranking E} :
      t.update i f = .ok t' → Step t (.update i f) (some i) t'
  | optionsSet (options : Options) : Step t (.setOptions options) none (t.setOptions options)

theorem Op.step (t : Ranking E) (op : Op E) : Step t op (op.written? t) (op.run t) := by
  cases op with
  | insert row requested =>
    simp only [written?, run]
    cases h : t.insert row requested with
    | error error => exact .refused
    | ok result => exact .inserted h
  | remove i =>
    simp only [written?, run]
    cases h : t.remove i with
    | error error => exact .refused
    | ok result => exact .removed h
  | removeWhere p => exact .removedWhere p
  | purge now => exact .removedWhere fun row => Expiring.isExpired row now
  | reorder i rank =>
    simp only [written?, run]
    cases h : t.reorder i rank with
    | error error => exact .refused
    | ok t' => exact .reordered h
  | write i origin updates =>
    simp only [written?, run]
    cases h : t.write i origin updates with
    | error error => exact .refused
    | ok t' => exact .written h
  | update i f =>
    simp only [written?, run]
    cases h : t.update i f with
    | error error => exact .refused
    | ok t' => exact .updated h
  | setOptions options => exact .optionsSet options

def run (t : Ranking E) (ops : List (Op E)) : Ranking E :=
  ops.foldl Op.run t

inductive Initial : Ranking E → Prop
  | empty (options : Options) : Initial (.empty options)
  | loaded {d : Doc} {t : Ranking E} : decode d = .ok t → Initial t

def Op.Fresh (t : Ranking E) : Op E → Prop
  | insert _ _ => t.table.NextIsFree
  | _ => True

def FreshRun (t : Ranking E) (ops : List (Op E)) : Prop :=
  Along Op.run Op.Fresh t ops

variable {t t' : Ranking E} {i : InstanceNumber} {row : E}

theorem insert_eq_ok_iff {requested : Option UInt32} :
    t.insert row requested = .ok (i, t') ↔ requested ≠ some 0 ∧ ∃ table,
      t.table.add (Ranked.withRank row (requested.getD (rankAfter t.maxRank))) = .ok (i, table) ∧
        settle table (some i) = t' := by
  unfold insert
  split_ifs with hzero
  · simp [hzero]
  · simp only [map_eq_ok_iff, hzero, ne_eq, not_false_eq_true, true_and, Prod.exists, Prod.mk.injEq]
    constructor
    · rintro ⟨_, table, hadd, rfl, rfl⟩
      exact ⟨table, hadd, rfl⟩
    · rintro ⟨table, hadd, rfl⟩
      exact ⟨i, table, hadd, rfl, rfl⟩

theorem remove_eq_ok_iff : t.remove i = .ok (row, t') ↔
    ∃ table, t.table.remove i = .ok (row, table) ∧ settle table none = t' := by
  simp only [remove, map_eq_ok_iff, Prod.exists, Prod.mk.injEq]
  constructor
  · rintro ⟨_, table, hremove, rfl, rfl⟩
    exact ⟨table, hremove, rfl⟩
  · rintro ⟨table, hremove, rfl⟩
    exact ⟨row, table, hremove, rfl, rfl⟩

theorem reorder_eq_ok_iff {rank : UInt32} : t.reorder i rank = .ok t' ↔
    rank ≠ 0 ∧ ∃ row, t.table.rows.get? i = some row ∧ settle { t.table with
      rows := t.table.rows.replace i (Ranked.withRank row rank) } (some i) = t' := by
  unfold reorder
  split_ifs with hzero
  · simp [hzero]
  · simp only [map_eq_ok_iff, Table.row_eq_ok_iff, hzero, ne_eq, not_false_eq_true, true_and]

theorem write_eq_ok_iff {origin : Origin} {updates : Updates} :
    t.write i origin updates = .ok t' ↔ ∃ table, t.table.write i origin updates = .ok table ∧
      settle table (if updates.any fun u => u.1 == Ranked.rankName E then some i else none) =
        t' := by
  simp only [write, map_eq_ok_iff]

theorem update_eq_ok_iff {f : E → E} :
    t.update i f = .ok t' ↔ ∃ table, t.table.update i f = .ok table ∧
      settle table (if (t.table.get? i).map Ranked.rank != (table.get? i).map Ranked.rank
        then some i else none) = t' := by
  simp only [update, map_eq_ok_iff]

theorem removeWhere_table (t : Ranking E) (p : E → Bool) :
    ((t.removeWhere p).2 = t ∧ (t.table.removeWhere p).2 = t.table) ∨
      (t.removeWhere p).2 = settle (t.table.removeWhere p).2 none := by
  unfold removeWhere Table.removeWhere
  cases t.table.rows.entries.filter fun e => p e.2 with
  | nil => exact Or.inl ⟨rfl, rfl⟩
  | cons e rest => exact Or.inr rfl

end Ranking
end Cwmp
