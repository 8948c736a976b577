import Cwmp.Entity.Basic
import Cwmp.Proofs.Answers
import Cwmp.Proofs.Schema.Canonical

/-! # What an object holds after a value was stored

A stored value reads back in its canonical form, all other parameters read as before, and the child
tables stay.
-/
namespace Cwmp

namespace Record

variable {name other : String} {v : Value}

theorem put_of_store {f : Field} {a : f.shape.Carrier} (hs : f.shape.store v = .ok a) :
    ∀ {fields : List Field} (r : Record fields), fields.find? (fun f => f.name == name) = some f →
      ∃ r', put name v fields r = .ok r' ∧ get? name fields r' = some (f.shape.value a)
  | [], _, h => by simp at h
  | g :: fields, (b, r), h => by
    by_cases hg : g.name = name
    · obtain rfl : g = f := by simpa [hg] using h
      exact ⟨(a, r), by simp [put, hg, hs, Except.map], by simp [get?, hg]⟩
    · obtain ⟨r', hput, hget⟩ := put_of_store hs r (by simpa [hg] using h)
      exact ⟨(b, r'), by simp [put, hg, hput, Except.map], by simp [get?, hg, hget]⟩

theorem exists_store_of_put {f : Field} : ∀ {fields : List Field} {r r' : Record fields},
    put name v fields r = .ok r' → fields.find? (fun f => f.name == name) = some f →
      ∃ a, f.shape.store v = .ok a ∧ get? name fields r' = some (f.shape.value a)
  | [], _, _, _, h => by simp at h
  | g :: fields, (b, r), r', hput, h => by
    simp only [put] at hput
    split_ifs at hput with hg
    · obtain rfl : g = f := by simpa [hg] using h
      obtain ⟨a, hstore, rfl⟩ := map_eq_ok_iff.1 hput
      exact ⟨a, hstore, by simp [get?, hg]⟩
    · obtain ⟨r₁, hrest, rfl⟩ := map_eq_ok_iff.1 hput
      obtain ⟨a, hstore, hget⟩ := exists_store_of_put hrest (by simpa [hg] using h)
      exact ⟨a, hstore, by simp [get?, hg, hget]⟩

theorem get?_put_of_ne (hne : other ≠ name) :
    ∀ {fields : List Field} {r r' : Record fields}, put name v fields r = .ok r' →
      get? other fields r' = get? other fields r
  | [], _, _, h => by simp [put] at h
  | f :: fields, (a, r), r', h => by
    simp only [put] at h
    split_ifs at h with hf
    · cases hs : f.shape.store v with
      | error fault => simp [hs, Except.map] at h
      | ok b =>
        simp only [hs, Except.map] at h
        obtain rfl := Except.ok.inj h
        have hfo : f.name ≠ other := fun h => hne (h.symm.trans hf)
        simp [get?, hfo]
    · cases hp : put name v fields r with
      | error fault => simp [hp, Except.map] at h
      | ok r₁ =>
        simp only [hp, Except.map] at h
        obtain rfl := Except.ok.inj h
        simp [get?, get?_put_of_ne hne hp]

end Record

namespace Entity

variable {E : Type} [Entity E] {e e' : E} {name other : String} {v : Value} {f : Field}

theorem put_eq_ok_iff : put e name v = .ok e' ↔
    ∃ r, (record e).put name v = .ok r ∧ withRecord e r = e' := by
  unfold put
  cases (record e).put name v <;> simp [Except.map]

theorem get?_put_of_ne (h : put e name v = .ok e') (hne : other ≠ name) :
    get? e' other = get? e other := by
  obtain ⟨r, hr, rfl⟩ := put_eq_ok_iff.1 h
  simp only [get?, record_withRecord]
  exact Record.get?_put_of_ne hne hr

theorem children_put (h : put e name v = .ok e') : (parts e').2 = (parts e).2 := by
  obtain ⟨r, -, rfl⟩ := put_eq_ok_iff.1 h
  exact children_withRecord e r

theorem put_of_store (e : E) (hf : field? E name = some f) {a : f.shape.Carrier}
    (hs : f.shape.store v = .ok a) :
    ∃ e', put e name v = .ok e' ∧ get? e' name = some (f.shape.value a) := by
  obtain ⟨r, hput, hget⟩ := Record.put_of_store hs (record e) hf
  refine ⟨withRecord e r, put_eq_ok_iff.2 ⟨r, hput, rfl⟩, ?_⟩
  simp only [get?, record_withRecord, hget]

theorem exists_store_of_put (hput : put e name v = .ok e') (hf : field? E name = some f) :
    ∃ a, f.shape.store v = .ok a ∧ get? e' name = some (f.shape.value a) := by
  obtain ⟨r, hr, rfl⟩ := put_eq_ok_iff.1 hput
  obtain ⟨a, hstore, hget⟩ := Record.exists_store_of_put hr hf
  exact ⟨a, hstore, by simp only [get?, record_withRecord, hget]⟩

theorem exists_put_iff (e : E) (hf : field? E name = some f) :
    (∃ e', put e name v = .ok e') ↔ ∃ a, f.shape.store v = .ok a := by
  constructor
  · rintro ⟨e', hput⟩
    obtain ⟨a, hstore, -⟩ := exists_store_of_put hput hf
    exact ⟨a, hstore⟩
  · rintro ⟨a, hstore⟩
    obtain ⟨e', hput, -⟩ := put_of_store e hf hstore
    exact ⟨e', hput⟩

theorem put_of_accepts (e : E) (hf : field? E name = some f) (hv : f.shape.kind.Accepts v) :
    ∃ e', put e name v = .ok e' ∧ get? e' name = some (f.shape.canonical v) := by
  obtain ⟨a, hstore, hvalue⟩ := Shape.exists_keeps hv
  rw [← hvalue]
  exact put_of_store e hf hstore

theorem assign_of_put (h : put e name v = .ok e') : assign e name v = e' := by
  simp [assign, h]

theorem get?_assign_of_ne (hne : other ≠ name) :
    get? (assign e name v) other = get? e other := by
  unfold assign
  split
  next e' h => exact get?_put_of_ne h hne
  next => rfl

end Entity
namespace Ranked

variable {E : Type} [Entity E] [Ranked E]

theorem get?_withRank_of_ne (e : E) (n : UInt32) {name : String} (h : name ≠ rankName E) :
    Entity.get? (withRank e n) name = Entity.get? e name :=
  Entity.get?_put_of_ne (put_rankName e n) h

theorem rank_eq_of_get? {a b : E} (h : Entity.get? a (rankName E) = Entity.get? b (rankName E)) :
    rank a = rank b := by
  rw [get?_rankName, get?_rankName, Option.some.injEq, Value.unsigned.injEq] at h
  exact UInt32.toNat_inj.1 h

theorem alias?_eq_none (h : rankName E = Entity.aliasName) (e : E) : Entity.alias? e = none := by
  simp only [Entity.alias?, ← h, get?_rankName]

@[simp] theorem alias?_withRank (e : E) (n : UInt32) :
    Entity.alias? (withRank e n) = Entity.alias? e := by
  by_cases h : rankName E = Entity.aliasName
  · rw [alias?_eq_none h, alias?_eq_none h]
  · simp only [Entity.alias?, get?_withRank_of_ne e n (Ne.symm h)]

end Ranked
end Cwmp
