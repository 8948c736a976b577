import Cwmp.Proofs.Table.Nested
import Cwmp.Proofs.Table.Related

/-! # Tables that answer alike

Two tables are alike when documents keep the same of their rows and when their indexes, counters and
options agree. No operation tells such tables apart, and they stay alike.
-/
namespace Cwmp

variable {E : Type} [Entity E] [BEq E] [Regular E]

theorem entries_kept_eq_iff {l l' : List (InstanceNumber × E)} :
    l.map (fun e => (e.1, Entity.reloaded e.2)) = l'.map (fun e => (e.1, Entity.reloaded e.2)) ↔
      EntriesRelated Entity.Same l l' := by
  rw [← List.forall₂_eq_eq_eq, List.forall₂_map_left_iff, List.forall₂_map_right_iff]
  simp only [Prod.mk.injEq]
  rfl

namespace Rows

variable {r s : Rows E}

def kept (r : Rows E) : Rows E :=
  r.map fun _ => Entity.reloaded

theorem entries_kept (r : Rows E) :
    r.kept.entries = r.entries.map fun e => (e.1, Entity.reloaded e.2) :=
  rfl

theorem kept_eq_iff : r.kept = s.kept ↔ Related Entity.Same r s := by
  have hentries : r.kept = s.kept ↔ r.kept.entries = s.kept.entries := by
    cases hr : r.kept
    cases hs : s.kept
    simp
  rw [hentries, entries_kept, entries_kept]
  exact entries_kept_eq_iff

end Rows

theorem Entity.question_congr {α : Type} {p : E → α} (hp : ∀ e, p (reloaded e) = p e) (a b : E)
    (hab : Same a b) : p a = p b := by
  rw [← hp a, ← hp b, show reloaded a = reloaded b from hab]

namespace Table

/-- Requests and rules tell nothing of an object but what documents keep of it. -/
theorem oblivious_same : Oblivious (E := E) Entity.Same Eq where
  alias?_eq h := h.alias?_eq
  withAlias s h := h.assign Entity.aliasName (.text s)
  isEnabled_eq h := h.isEnabled_eq
  get?_eq h _ _ name _ := h.get?_eq name
  validate_eq h := h.validate_eq
  names_eq h := congrArg (List.map Prod.fst) h
  write origin h hupdates := hupdates ▸ h.write origin _

def RowsEqual (l l' : List (InstanceNumber × E)) : Prop :=
  List.Forall₂ (fun e e' => e.1 = e'.1 ∧ (e.2 == e'.2) = true) l l'

theorem rowsEqual_of_related {l l' : List (InstanceNumber × E)}
    (h : EntriesRelated Entity.Same l l') : RowsEqual l l' :=
  List.Forall₂.imp (fun _ _ he => ⟨he.1, he.2.beq⟩) h

/-- Tables between which no operation can tell. -/
structure Alike (t u : Table E) : Prop where
  rows : t.rows.kept = u.rows.kept
  aliases : SameIndex t.aliases u.aliases
  next : t.next = u.next
  options : t.options = u.options

namespace Alike

variable {t u : Table E}

theorem related (h : Alike t u) : Related Entity.Same t u :=
  ⟨Rows.kept_eq_iff.1 h.rows, h.aliases, h.next, h.options⟩

theorem of_related (h : Related Entity.Same t u) : Alike t u :=
  ⟨Rows.kept_eq_iff.2 h.rows, h.aliases, h.next, h.options⟩

theorem row (h : Alike t u) (i : InstanceNumber) :
    AnswerAlike Entity.Same (t.row i) (u.row i) :=
  h.related.row i

theorem resolve (h : Alike t u) (s : String) : t.resolve s = u.resolve s :=
  h.related.resolve s

theorem setOptions (h : Alike t u) (options : Options) :
    Alike (t.setOptions options) (u.setOptions options) :=
  of_related (h.related.setOptions options)

theorem add (h : Alike t u) (row : E) :
    AnswerAlike (fun p q => p.1 = q.1 ∧ Alike p.2 q.2) (t.add row) (u.add row) :=
  (h.related.add oblivious_same rfl).imp fun _ _ hpq => ⟨hpq.1, of_related hpq.2⟩

theorem remove (h : Alike t u) (i : InstanceNumber) :
    AnswerAlike (fun p q => Entity.Same p.1 q.1 ∧ Alike p.2 q.2) (t.remove i) (u.remove i) :=
  (h.related.remove oblivious_same i).imp fun _ _ hpq => ⟨hpq.1, of_related hpq.2⟩

theorem removeWhere (h : Alike t u) {p : E → Bool} (hp : ∀ row, p (Entity.reloaded row) = p row) :
    EntriesRelated Entity.Same (t.removeWhere p).1 (u.removeWhere p).1 ∧
      Alike (t.removeWhere p).2 (u.removeWhere p).2 :=
  (h.related.removeWhere oblivious_same (Entity.question_congr hp)).imp_right of_related

theorem write (h : Alike t u) (i : InstanceNumber) (origin : Origin) (updates : Updates) :
    AnswerAlike Alike (t.write i origin updates) (u.write i origin updates) :=
  (h.related.write oblivious_same i origin rfl).imp fun _ _ => of_related

theorem update (h : Alike t u) (i : InstanceNumber) {f : E → E}
    (hf : ∀ a b, Entity.Same a b → Entity.Same (f a) (f b)) :
    AnswerAlike Alike (t.update i f) (u.update i f) :=
  (h.related.update oblivious_same i hf).imp fun _ _ => of_related

end Alike

/-- An operation that looks at nothing of a row but what documents keep of it. -/
def Op.Blind : Op E → Prop
  | removeWhere p => ∀ row, p (Entity.reloaded row) = p row
  | purge _ => ∀ row : E, Expiring.expiresAt (Entity.reloaded row) = Expiring.expiresAt row
  | update _ f => ∀ a b, Entity.Same a b → Entity.Same (f a) (f b)
  | _ => True

variable {t u : Table E}

theorem Op.Blind.paired {op : Op E} (h : op.Blind) : Op.Paired Entity.Same Eq op op := by
  cases op with
  | add row => exact .add rfl
  | remove i => exact .remove i
  | removeWhere p => exact .removeWhere (Entity.question_congr h)
  | purge now => exact .purge now (Entity.question_congr h)
  | write i origin updates => exact .write i origin rfl
  | update i f => exact .update i h
  | setOptions options => exact .setOptions options

theorem Alike.run (h : Alike t u) {ops : List (Op E)} (hops : ∀ op ∈ ops, op.Blind) :
    Alike (t.run ops) (u.run ops) := by
  refine of_related (h.related.run oblivious_same ?_).2
  rw [List.forall₂_same]
  exact fun op hop => (hops op hop).paired

structure AnswersAlike (t u : Table E) : Prop where
  rows : RowsEqual t.rows.entries u.rows.entries
  parameters : ∀ path, t.parameters path = u.parameters path
  violations : t.violations = u.violations
  resolve : ∀ s, t.resolve s = u.resolve s
  add : ∀ row, (t.add row).map Prod.fst = (u.add row).map Prod.fst
  remove : ∀ i, AnswerAlike (fun a b => (a == b) = true) ((t.remove i).map Prod.fst)
    ((u.remove i).map Prod.fst)
  removeWhere : ∀ p : E → Bool, (∀ row, p (Entity.reloaded row) = p row) →
    RowsEqual (t.removeWhere p).1 (u.removeWhere p).1
  write : ∀ i origin updates,
    (t.write i origin updates).map (fun _ => ()) = (u.write i origin updates).map fun _ => ()
  update : ∀ i (f : E → E), (∀ a b, Entity.Same a b → Entity.Same (f a) (f b)) →
    (t.update i f).map (fun _ => ()) = (u.update i f).map fun _ => ()

/-- Tables between which no operation can tell give the same answers. -/
theorem Alike.answersAlike (h : Alike t u) : AnswersAlike t u where
  rows := rowsEqual_of_related h.related.rows
  parameters := Related.parameters_eq h.related.rows fun _ _ hab => hab.texts_eq
  violations := Related.violations_eq h.related.rows oblivious_same
  resolve := h.resolve
  add row := (h.add row).map_eq fun _ _ hpq => hpq.1
  remove i := (h.remove i).map fun _ _ hpq => hpq.1.beq
  removeWhere _ hp := rowsEqual_of_related (h.removeWhere hp).1
  write i origin updates := (h.write i origin updates).map_eq fun _ _ _ => rfl
  update i _ hf := (h.update i hf).map_eq fun _ _ _ => rfl

end Table
end Cwmp
