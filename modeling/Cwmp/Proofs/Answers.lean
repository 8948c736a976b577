import Mathlib.Tactic

/-! # Attempts that succeeded

An attempt made of others succeeded exactly if they did.
-/
namespace Cwmp

variable {ε δ α β : Type} {x : Except ε α} {a : α} {b : β}

theorem map_eq_ok_iff {f : α → β} : x.map f = .ok b ↔ ∃ a, x = .ok a ∧ f a = b := by
  cases x <;> simp [Except.map]

theorem bind_eq_ok_iff {f : α → Except ε β} : x >>= f = .ok b ↔ ∃ a, x = .ok a ∧ f a = .ok b := by
  cases x <;> simp [bind, Except.bind]

theorem check_bind_eq_ok_iff {p : Prop} [Decidable p] {e : ε} :
    (if p then (Except.error e : Except ε PUnit) >>= fun _ => x else x) = .ok a ↔
      ¬ p ∧ x = .ok a := by
  by_cases h : p <;> simp [h, bind, Except.bind]

theorem mapError_eq_ok_iff {f : ε → δ} : x.mapError f = .ok a ↔ x = .ok a := by
  cases x <;> simp [Except.mapError]

end Cwmp
