import Cwmp.Proofs.Entity.FieldFaults
import Cwmp.Proofs.Objects.Regular

/-! # Accepted values are stored

The bounds of a parameter are those of its kind, and the object stores it in a type of its own. The
two fit together: an object stores every value that the check of the parameter lets pass, and a
request that comes as far as storing is not refused any more. What is read from a parameter may be
stored in it again, and the object stays as it is.
-/
namespace Cwmp

theorem Record.put_of_get? {name : String} {v : Value} : ∀ {fields : List Field}
    {r : Record fields}, get? name fields r = some v → put name v fields r = .ok r
  | [], _, h => by cases h
  | f :: fields, (a, r), h => by
    simp only [get?] at h
    split_ifs at h with hf
    · obtain rfl := Option.some.inj h
      simp only [put, hf, ↓reduceIte, Shape.store_value]
      rfl
    · simp only [put, hf, ↓reduceIte, put_of_get? h]
      rfl

namespace Entity

variable {E : Type} [Entity E]

structure PutsCanonical (f : Field) (v : Value) (e e' : E) : Prop where
  put_eq : put e f.name v = .ok e'
  /-- The parameter reads as the value in its canonical form, which the parameter takes too. -/
  get_eq : get? e' f.name = some (f.shape.canonical v)
  check_eq : f.shape.kind.check f.name (f.shape.canonical v) = .ok ()
  others_eq : ∀ name, name ≠ f.name → get? e' name = get? e name
  children_eq : (parts e').2 = (parts e).2

variable (E) in
/-- The parameter `f` of an object stores whatever passes its check. -/
structure Storable (f : Field) : Prop where
  stores : ∀ (e : E) (v : Value), f.shape.kind.check f.name v = .ok () →
    ∃ e', PutsCanonical f v e e'
  /-- What is read from the parameter is stored in it without a change. -/
  stores_own : ∀ e : E, ∃ v, get? e f.name = some v ∧ put e f.name v = .ok e
  /-- An entry of a request that passes every check before it would be stored is accepted. -/
  judged : ∀ (origin : Origin) (earlier : List String) (text : String) (v : Value),
    f.name ∉ earlier → ¬ (origin = .controller ∧ f.access = .readOnly) →
      f.shape.kind.read text = .ok v → f.shape.kind.check f.name v = .ok () →
        judge E origin earlier f.name text = .ok (f, v)

theorem exists_putsCanonical {f : Field} (e : E) {v : Value} (hf : field? E f.name = some f)
    (hcheck : f.shape.kind.check f.name v = .ok ()) : ∃ e', PutsCanonical f v e e' := by
  have hv : f.shape.kind.Accepts v := Kind.check_eq_ok_iff.1 hcheck
  obtain ⟨e', hput, hget⟩ := put_of_accepts e hf hv
  exact ⟨e', hput, hget, Kind.check_eq_ok_iff.2 (Shape.accepts_canonical hv),
    fun name hne => get?_put_of_ne hput hne, children_put hput⟩

theorem put_of_get? {e : E} {name : String} {v : Value} (h : get? e name = some v) :
    put e name v = .ok e :=
  put_eq_ok_iff.2 ⟨record e, Record.put_of_get? h, withRecord_record e⟩

/-- Every parameter of the objects of the data model stores whatever passes its check. -/
theorem storable_of_mem [BEq E] [Regular E] {f : Field} (hf : f ∈ fields E) : Storable E f := by
  have hfield : field? E f.name = some f := field?_name hf
  constructor
  · exact fun e v hcheck => exists_putsCanonical e hfield hcheck
  · intro e
    obtain ⟨v, hv⟩ := Record.exists_mem_values (record e) hf
    have hget : get? e f.name = some v := Record.get?_of_mem_values (nodup_fieldNames E) hv
    exact ⟨v, hget, put_of_get? hget⟩
  · intro origin earlier text v hnew hopen hread hcheck
    exact judge_of_passes
      ⟨hnew, hfield, openTo_iff.2 hopen, hread, Kind.check_eq_ok_iff.1 hcheck⟩

/-- A hardware address with hyphens and capitals reads back in the form of the device. -/
theorem storable_of_mem_chaddr :
    let f : Field := .rw "Chaddr" .mac
    let v : Value := .text "00-1A-2B-3C-4D-5E"
    f ∈ fields StaticAddress ∧ f.shape.kind.check f.name v = .ok () ∧
      ∃ e' : StaticAddress, PutsCanonical f v initial e' ∧
        get? e' "Chaddr" = some (.text "00:1a:2b:3c:4d:5e") := by
  intro f v
  have hf : f ∈ fields StaticAddress := by simp [f, fields]
  have hcheck : f.shape.kind.check f.name v = .ok () := by decide
  obtain ⟨e', hputs⟩ := (storable_of_mem hf).stores initial v hcheck
  have hcanonical : f.shape.canonical v = .text "00:1a:2b:3c:4d:5e" := by decide
  exact ⟨hf, hcheck, e', hputs, hcanonical ▸ hputs.get_eq⟩

end Entity
end Cwmp
