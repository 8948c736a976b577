import Cwmp.Entity.Write
import Cwmp.Proofs.Entity.Regular

/-! # Objects of which documents keep the same

Such objects read alike, and they stay such when the same is written to them.
-/
namespace Cwmp

/-- Two attempts that fail with the same error or succeed with related results. -/
inductive AnswerAlike {ε α β : Type} (R : α → β → Prop) : Except ε α → Except ε β → Prop
  | ok {a : α} {b : β} : R a b → AnswerAlike R (.ok a) (.ok b)
  | error (e : ε) : AnswerAlike R (.error e) (.error e)

namespace AnswerAlike

variable {ε α β : Type} {R : α → β → Prop} {x : Except ε α} {y : Except ε β}

theorem cases (h : AnswerAlike R x y) :
    (∃ a b, x = .ok a ∧ y = .ok b ∧ R a b) ∨ ∃ e, x = .error e ∧ y = .error e := by
  cases h with
  | ok hab => exact .inl ⟨_, _, rfl, rfl, hab⟩
  | error e => exact .inr ⟨e, rfl, rfl⟩

theorem imp {S : α → β → Prop} (h : AnswerAlike R x y) (hS : ∀ a b, R a b → S a b) :
    AnswerAlike S x y := by
  cases h with
  | ok hab => exact .ok (hS _ _ hab)
  | error e => exact .error e

theorem map {γ δ : Type} {S : γ → δ → Prop} {f : α → γ} {g : β → δ} (h : AnswerAlike R x y)
    (hS : ∀ a b, R a b → S (f a) (g b)) : AnswerAlike S (x.map f) (y.map g) := by
  cases h with
  | ok hab => exact .ok (hS _ _ hab)
  | error e => exact .error e

theorem map_eq {γ : Type} {f : α → γ} {g : β → γ} (h : AnswerAlike R x y)
    (heq : ∀ a b, R a b → f a = g b) : x.map f = y.map g := by
  cases h with
  | ok hab => exact congrArg Except.ok (heq _ _ hab)
  | error e => rfl

end AnswerAlike

namespace Entity

variable {E : Type} [Entity E] {a b : E}

theorem assign_related {R : E → E → Prop} {name : String} {v w : Value} (h : R a b)
    (hput : AnswerAlike R (put a name v) (put b name w)) :
    R (assign a name v) (assign b name w) := by
  unfold assign
  rcases hput.cases with ⟨a', b', ha, hb, hab⟩ | ⟨fault, ha, hb⟩
  · simpa only [ha, hb] using hab
  · simpa only [ha, hb] using h

variable [BEq E] [Regular E]

namespace Same

theorem record_eq (h : Same a b) : record a = record b :=
  (same_iff.1 h).1

theorem get?_eq (h : Same a b) (name : String) : get? a name = get? b name := by
  rw [get?, get?, h.record_eq]

theorem values_eq (h : Same a b) : values a = values b := by
  rw [values, values, h.record_eq]

theorem texts_eq (h : Same a b) : texts a = texts b := by
  rw [texts, texts, h.values_eq]

theorem validate_eq (h : Same a b) : validate a = validate b := by
  rw [validate, validate, h.values_eq]

theorem alias?_eq (h : Same a b) : alias? a = alias? b := by
  rw [alias?, alias?, h.get?_eq]

theorem isEnabled_eq (h : Same a b) : isEnabled a = isEnabled b :=
  Regular.isEnabled_eq a b h.record_eq

theorem isOpen_eq (h : Same a b) (g : Gate) : isOpen a g = isOpen b g := by
  rw [isOpen, isOpen, h.get?_eq]

theorem withRecord (h : Same a b) (r : Record (fields E)) :
    Same (withRecord a r) (withRecord b r) := by
  rw [same_iff, record_withRecord, record_withRecord, children_withRecord, children_withRecord]
  exact ⟨rfl, (same_iff.1 h).2⟩

theorem put (h : Same a b) (name : String) (v : Value) :
    AnswerAlike Same (put a name v) (put b name v) := by
  unfold Entity.put
  rw [h.record_eq]
  cases (record b).put name v with
  | ok r => exact .ok (h.withRecord r)
  | error fault => exact .error fault

theorem assign (h : Same a b) (name : String) (v : Value) :
    Same (assign a name v) (assign b name v) :=
  assign_related h (h.put name v)

theorem stored (h : Same a b) (judged : List (Except ParameterFault (Field × Value))) :
    Same (stored judged a) (stored judged b) := by
  unfold Entity.stored
  induction judged.filterMap Except.toOption generalizing a b with
  | nil => exact h
  | cons p rest ih => exact ih (h.assign p.1.name p.2)

theorem shut?_eq (h : Same a b) (origin : Origin)
    (verdict : Except ParameterFault (Field × Value)) :
    shut? origin a verdict = shut? origin b verdict := by
  have hgates : ∀ f : Field, gateFault? a f = gateFault? b f := by
    intro f
    simp only [gateFault?, h.isOpen_eq]
  unfold shut?
  split
  · rfl
  · simp only [hgates]

theorem write (h : Same a b) (origin : Origin) (updates : Updates) :
    AnswerAlike Same (write origin updates a) (write origin updates b) := by
  have hstored := h.stored (verdicts E origin [] updates)
  unfold Entity.write
  simp only [hstored.shut?_eq origin]
  split
  · exact .ok hstored
  · exact .error _

section Ranks

variable [Ranked E]

theorem rank_eq (h : Same a b) : Ranked.rank a = Ranked.rank b :=
  Ranked.rank_eq_of_get? (h.get?_eq _)

theorem withRank (h : Same a b) (n : UInt32) :
    Same (Ranked.withRank a n) (Ranked.withRank b n) := by
  have hput := h.put (Ranked.rankName E) (.unsigned n.toNat)
  rw [Ranked.put_rankName, Ranked.put_rankName] at hput
  cases hput with
  | ok hab => exact hab

end Ranks

end Same

end Entity
end Cwmp
