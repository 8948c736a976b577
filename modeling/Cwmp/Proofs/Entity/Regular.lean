import Cwmp.Proofs.Entity.Nested
import Cwmp.Proofs.Entity.Stored

/-! # What all objects have in common

The members of an object have different names, its secrets are texts, as created it holds no rows,
and two objects are equal when their parameters and their tables are. Such an object comes back from
a document.
-/
namespace Cwmp

namespace Record

variable {fields : List Field}

theorem exists_value_eq : ∀ {fields : List Field} {r : Record fields} {f : Field} {v : Value},
    (f, v) ∈ values fields r → f ∈ fields ∧ ∃ a : f.shape.Carrier, v = f.shape.value a
  | [], _, _, _, h => by cases h
  | g :: fields, (a, r), f, v, h => by
    rcases List.mem_cons.1 h with heq | h
    · cases heq
      exact ⟨List.mem_cons_self, a, rfl⟩
    · obtain ⟨hf, hv⟩ := exists_value_eq h
      exact ⟨List.mem_cons_of_mem g hf, hv⟩

theorem map_fst_values {fields : List Field} (r : Record fields) :
    (values fields r).map Prod.fst = fields := by
  induction fields with
  | nil => rfl
  | cons f fields ih =>
    obtain ⟨a, r⟩ := r
    exact congrArg (f :: ·) (ih r)

theorem exists_mem_values {fields : List Field} (r : Record fields) {f : Field}
    (h : f ∈ fields) : ∃ v, (f, v) ∈ values fields r := by
  rw [← map_fst_values r] at h
  obtain ⟨⟨g, v⟩, hv, rfl⟩ := List.mem_map.1 h
  exact ⟨v, hv⟩

theorem get?_of_mem_values : ∀ {fields : List Field} {r : Record fields} {f : Field} {v : Value},
    (fields.map (·.name)).Nodup → (f, v) ∈ values fields r → get? f.name fields r = some v
  | [], _, _, _, _, h => by cases h
  | g :: fields, (a, r), f, v, hnodup, h => by
    rw [List.map_cons, List.nodup_cons] at hnodup
    rcases List.mem_cons.1 h with heq | h
    · cases heq
      simp [get?]
    · have hne : g.name ≠ f.name := fun heq =>
        hnodup.1 (heq ▸ List.mem_map_of_mem (exists_value_eq h).1)
      simp [get?, hne, get?_of_mem_values hnodup.2 h]

theorem ext_of_get? : ∀ {fields : List Field} {r s : Record fields}, (fields.map (·.name)).Nodup →
    (∀ f v, (f, v) ∈ values fields s → get? f.name fields r = some v) → r = s
  | [], _, _, _, _ => rfl
  | f :: fields, (a, r), (b, s), hnodup, h => by
    rw [List.map_cons, List.nodup_cons] at hnodup
    have hhead := h f _ List.mem_cons_self
    simp only [get?, ↓reduceIte, Option.some.injEq] at hhead
    have htail : r = s := by
      refine ext_of_get? hnodup.2 fun g v hv => ?_
      have hne : f.name ≠ g.name := fun heq =>
        hnodup.1 (heq ▸ List.mem_map_of_mem (exists_value_eq hv).1)
      simpa [get?, hne] using h g v (List.mem_cons_of_mem _ hv)
    rw [f.shape.value_injective hhead, htail]

/-- Two records agree field by field, and something else holds. -/
def AgreeAnd (p : Prop) : (fields : List Field) → Record fields → Record fields → Prop
  | [], _, _ => p
  | _ :: fields, (a, r), (b, s) => a = b ∧ AgreeAnd p fields r s

theorem agreeAnd_iff {p : Prop} {fields : List Field} {r s : Record fields} :
    AgreeAnd p fields r s ↔ r = s ∧ p := by
  induction fields with
  | nil => exact (and_iff_right rfl).symm
  | cons f fields ih =>
    obtain ⟨a, r⟩ := r
    obtain ⟨b, s⟩ := s
    rw [AgreeAnd, ih, ← and_assoc, ← Prod.mk.injEq]
    exact Iff.rfl

end Record

/-- Objects that are compared field by field, and then table by table, are equal when their
parameters and their tables are. -/
theorem Entity.beq_iff_of_agreeAnd {E : Type} [Entity E] [BEq E] {tables : E → E → Prop}
    (h : ∀ a b : E, (a == b) = true ∧ True ↔
      Record.AgreeAnd (tables a b) (fields E) (record a) (record b)) (a b : E) :
    (a == b) = true ↔ record a = record b ∧ tables a b := by
  rw [← Record.agreeAnd_iff, ← h, and_true]

/-- An object such as those of the data model. -/
class Regular (E : Type) [Entity E] [BEq E] extends NestedAll (Entity.children E) where
  nodup_memberNames : (Entity.memberNames E).Nodup := by decide
  text_of_secret : ∀ f ∈ Entity.fields E, f.secret = true → ∃ n, f.shape = .text n := by
    simp [Entity.fields, Field.rw, Field.ro, Field.gated, Field.notifying, Field.hidden]
  initial_allEmpty : NestedAll.AllEmpty (Entity.parts (Entity.initial : E)).2
  beq_iff : ∀ a b : E, (a == b) = true ↔
      Entity.record a = Entity.record b ∧
        NestedAll.AllBEq (Entity.parts a).2 (Entity.parts b).2 := by
    apply Entity.beq_iff_of_agreeAnd
    rintro ⟨⟩ ⟨⟩
    change (_ && _) = true ∧ True ↔ _
    simp only [Bool.and_eq_true, beq_iff_eq, and_assoc]
    exact Iff.rfl
  isEnabled_eq : ∀ a b : E, Entity.record a = Entity.record b →
    Entity.isEnabled a = Entity.isEnabled b := by intro _ _ _; rfl

namespace Entity

variable {E : Type} [Entity E] [BEq E] [Regular E]

variable (E) in
theorem nodup_fieldNames : ((fields E).map (·.name)).Nodup :=
  (List.nodup_append.1 (Regular.nodup_memberNames (E := E))).1

theorem field?_name {f : Field} (h : f ∈ fields E) : field? E f.name = some f := by
  unfold field?
  cases hfind : (fields E).find? fun g => g.name == f.name with
  | none => simpa using List.find?_eq_none.1 hfind f h
  | some g =>
    have hname : g.name = f.name := by simpa using List.find?_some hfind
    have hinj := List.inj_on_of_nodup_map (nodup_fieldNames E)
    rw [hinj (List.mem_of_find?_eq_some hfind) h hname]

theorem exists_read? (e : E) {f : Field} (h : f ∈ fields E) : ∃ v, read? e f.name = some v := by
  obtain ⟨v, hv⟩ := Record.exists_mem_values (record e) h
  have hget : get? e f.name = some v := Record.get?_of_mem_values (nodup_fieldNames E) hv
  refine ⟨f.shown v, ?_⟩
  simp only [read?, field?_name h, hget, Option.map_some]

def Childless (e : E) : Prop :=
  NestedAll.AllEmpty (parts e).2

def Tidy (e : E) : Prop :=
  (∀ f v, (f, v) ∈ values e → v.Tidy) ∧ NestedAll.AllTidy (parts e).2

/-- What a document gives back of the object. -/
def reloaded (e : E) : E :=
  ofParts (record e, NestedAll.reloaded (parts e).2)

@[simp] theorem reloaded_reloaded (e : E) : reloaded (reloaded e) = reloaded e := by
  simp [reloaded, record, parts_ofParts, NestedAll.reloaded_reloaded]

/-- Documents keep the same of both objects. -/
def Same (a b : E) : Prop :=
  reloaded a = reloaded b

theorem same_iff {a b : E} : Same a b ↔
    record a = record b ∧ NestedAll.reloaded (parts a).2 = NestedAll.reloaded (parts b).2 := by
  constructor
  · intro h
    have hparts := congrArg parts h
    simp only [reloaded, parts_ofParts] at hparts
    exact Prod.mk.inj hparts
  · rintro ⟨hrecord, hchildren⟩
    simp only [Same, reloaded, hrecord, hchildren]

theorem same_reloaded (e : E) : Same (reloaded e) e :=
  reloaded_reloaded e

theorem Same.beq {a b : E} (h : Same a b) : (a == b) = true := by
  obtain ⟨hrecord, hchildren⟩ := same_iff.1 h
  exact (Regular.beq_iff a b).2 ⟨hrecord, NestedAll.allBEq_of_reloaded_eq hchildren⟩

theorem loads_record {e : E} (h : Tidy e) : Loads load? (initial : E)
    (Record.encode (fields E) (record e)) (withRecord initial (record e)) := by
  have hloads := Record.loads_encode (record (initial : E)) (record e) (nodup_fieldNames E) h.1
  have hlift : Loads load? (withRecord (initial : E) (record initial))
      (Record.encode (fields E) (record e)) (withRecord initial (record e)) := by
    refine hloads.lift (withRecord initial) fun r name d r' _ hload => ?_
    simp only [load?, withRecord, parts_ofParts, hload, Option.some.injEq]
    rfl
  rwa [withRecord_record] at hlift

theorem loads_children {e : E} (h : Tidy e) : Loads load? (withRecord initial (record e))
    (Children.encode (children E) (parts e).2) (reloaded e) := by
  obtain ⟨-, hchildren, hdisjoint⟩ := List.nodup_append.1 (Regular.nodup_memberNames (E := E))
  have hloads := NestedAll.loads_encode (s := (parts (initial : E)).2) hchildren h.2
  refine hloads.lift (fun c => ofParts (record e, c)) fun c name d c' hmem hload => ?_
  have hname : name ∉ (fields E).map (·.name) := fun hf =>
    hdisjoint name hf name (name_mem_of_mem (Children.keys_encode _) hmem) rfl
  simp only [load?, parts_ofParts, Record.load?_eq_none _ hname, hload, Option.map_some,
    Option.some.injEq]
  rfl

/-- A tidy object comes back from a document, up to what is made anew of its tables. -/
theorem decode_encode {e : E} (h : Tidy e) : decode (encode e) = .ok (reloaded e) := by
  have hkeys : ((Record.encode (fields E) (record e) ++
      Children.encode (children E) (parts e).2).map Prod.fst).Nodup := by
    rw [List.map_append, Record.keys_encode, Children.keys_encode, ← List.map_append]
    have hinj : Function.Injective Key.name := fun _ _ heq => Key.name.inj heq
    exact (Regular.nodup_memberNames (E := E)).map hinj
  exact loadMembers_eq_ok ((loads_record h).append (loads_children h)) hkeys (by simp)

end Entity
end Cwmp
