import Cwmp.Schema.Shape
import Mathlib.Tactic

/-! # Canonical values

A value that the kind of a parameter takes is always stored, and it reads back in its canonical
form: addresses as the device writes them, everything else as it came.
-/
namespace Cwmp

open Text

theorem Ipv4.read_empty : Ipv4.read "" = none := by decide

theorem Mac.read_empty : Mac.read "" = none := by decide

inductive Kind.Takes : Kind → Value → Prop
  | boolean (b : Bool) : Takes .boolean (.boolean b)
  | int {bottom top i : Int} : bottom ≤ i → i ≤ top → Takes (.int bottom top) (.int i)
  | unsigned {bottom top n : Nat} : bottom ≤ n → n ≤ top →
      Takes (.unsigned bottom top) (.unsigned n)
  | text {maxLength : Option Nat} {t : String} : (∀ n ∈ maxLength, t.length ≤ n) →
      Takes (.text maxLength) (.text t)
  | choice {words : List String} {t : String} : t ∈ words → Takes (.choice words) (.text t)
  | moment (t : Instant) : Takes .moment (.moment t)
  | ipv4 {t : String} : t = "" ∨ (Ipv4.read t).isSome → Takes .ipv4 (.text t)
  | mac {t : String} : t = "" ∨ (Mac.read t).isSome → Takes .mac (.text t)
  | list {maxLength : Option Nat} {items : List String} :
      (∀ n ∈ maxLength, (commaText items).length ≤ n) → Takes (.list maxLength) (.list items)

theorem Kind.accepts_iff {k : Kind} {v : Value} : k.Accepts v ↔ k.Takes v := by
  unfold Accepts
  constructor
  · intro h
    unfold misfit? at h
    split at h
    · exact .boolean _
    · exact .moment _
    · split_ifs at h with hbounds
      exact .int hbounds.1 hbounds.2
    · split_ifs at h with hbounds
      exact .unsigned hbounds.1 hbounds.2
    · split_ifs at h with hlong
      exact .text (by simpa using hlong)
    · exact .text (by simp)
    · split_ifs at h with hmem
      exact .choice hmem
    · split_ifs at h with hread
      exact .ipv4 hread
    · split_ifs at h with hread
      exact .mac hread
    · dsimp only at h
      split_ifs at h with hlong
      exact .list (by simpa using hlong)
    · exact .list (by simp)
    · cases h
  · intro h
    cases h with
    | boolean b => rfl
    | int hb ht => exact if_pos ⟨hb, ht⟩
    | unsigned hb ht => exact if_pos ⟨hb, ht⟩
    | @text maxLength t ht =>
      cases maxLength with
      | none => rfl
      | some n => exact if_neg (Nat.not_lt.2 (ht n rfl))
    | choice hmem => exact if_pos hmem
    | moment t => rfl
    | ipv4 hread => exact if_pos hread
    | mac hread => exact if_pos hread
    | @list maxLength items hitems =>
      cases maxLength with
      | none => rfl
      | some n => exact if_neg (Nat.not_lt.2 (hitems n rfl))

namespace Shape

/-- The form in which a parameter gives back a value that was stored in it. -/
def canonical : Shape → Value → Value
  | ipv4, .text t => .text ((Ipv4.read t).elim t Ipv4.write)
  | mac, .text t => .text ((Mac.read t).elim t Mac.write)
  | _, v => v

/-- The shape stores a value as `a`, from which the canonical form reads back. -/
def Keeps (s : Shape) (v : Value) (a : s.Carrier) : Prop :=
  s.store v = .ok a ∧ s.value a = s.canonical v

theorem exists_keeps_int {bottom top i : Int}
    {fits : decide (int32Min ≤ bottom ∧ top ≤ int32Max) = true} (hb : bottom ≤ i) (ht : i ≤ top) :
    ∃ a, (int bottom top fits).Keeps (.int i) a := by
  obtain ⟨hmin, hmax⟩ := of_decide_eq_true fits
  have hfit : int32Min ≤ i ∧ i ≤ int32Max := ⟨Int.le_trans hmin hb, Int.le_trans ht hmax⟩
  have hvalue : (Int32.ofInt i).toInt = i :=
    Int32.toInt_ofInt_of_le hfit.1 (Int.lt_add_one_of_le hfit.2)
  exact ⟨Int32.ofInt i, if_pos hfit, congrArg Value.int hvalue⟩

theorem exists_keeps_unsigned {bottom top n : Nat} {fits : decide (top ≤ uint32Max) = true}
    (ht : n ≤ top) : ∃ a, (unsigned bottom top fits).Keeps (.unsigned n) a := by
  have hfit : n ≤ uint32Max := Nat.le_trans ht (of_decide_eq_true fits)
  have hvalue : (UInt32.ofNat n).toNat = n := UInt32.toNat_ofNat_of_lt (Nat.lt_succ_of_le hfit)
  exact ⟨UInt32.ofNat n, if_pos hfit, congrArg Value.unsigned hvalue⟩

theorem exists_keeps_choice {V : Type} [Vocabulary V] {word : String}
    (h : word ∈ Vocabulary.words V) : ∃ a, (choice V).Keeps (.text word) a := by
  obtain ⟨a, ha⟩ := Vocabulary.mem_words_iff.1 h
  refine ⟨a, by simp [store, Value.write, ha], ?_⟩
  simpa [value, canonical] using Vocabulary.word_of_ofWord? ha

section Addresses

variable {A F : Type} {read : String → Option A} {fault : String → F} {t : String} {a : Option A}

theorem exists_readAddress_iff :
    (∃ a, readAddress read fault t = .ok a) ↔ t = "" ∨ (read t).isSome := by
  unfold readAddress
  split_ifs with hempty
  · exact iff_of_true ⟨none, rfl⟩ (.inl hempty)
  · rw [or_iff_right hempty]
    cases read t <;> simp

theorem elim_of_readAddress (write : A → String) (hempty : read "" = none)
    (h : readAddress read fault t = .ok a) : a.elim "" write = (read t).elim t write := by
  unfold readAddress at h
  split_ifs at h with ht
  · obtain rfl := Except.ok.inj h
    rw [ht, hempty, Option.elim_none]
  · cases hread : read t with
    | none => simp [hread] at h
    | some b =>
      obtain rfl : some b = a := by simpa [hread] using h
      rfl

end Addresses

/-- The store refuses no value that the kind takes. -/
theorem exists_keeps {s : Shape} {v : Value} (h : s.kind.Accepts v) : ∃ a, s.Keeps v a := by
  rw [Kind.accepts_iff] at h
  cases s with
  | boolean =>
    cases h with
    | boolean b => exact ⟨b, rfl, rfl⟩
  | int =>
    cases h with
    | int hb ht => exact exists_keeps_int hb ht
  | unsigned =>
    cases h with
    | unsigned hb ht => exact exists_keeps_unsigned ht
  | text n =>
    cases h with
    | text ht => exact ⟨_, rfl, rfl⟩
  | choice V =>
    cases h with
    | choice ht => exact exists_keeps_choice ht
  | moment =>
    cases h with
    | moment t => exact ⟨t, rfl, rfl⟩
  | ipv4 =>
    cases h with
    | ipv4 ht =>
      obtain ⟨a, ha⟩ := exists_readAddress_iff.2 ht
      exact ⟨a, ha, congrArg Value.text (elim_of_readAddress Ipv4.write Ipv4.read_empty ha)⟩
  | mac =>
    cases h with
    | mac ht =>
      obtain ⟨a, ha⟩ := exists_readAddress_iff.2 ht
      exact ⟨a, ha, congrArg Value.text (elim_of_readAddress Mac.write Mac.read_empty ha)⟩
  | list n =>
    cases h with
    | list ht => exact ⟨_, rfl, rfl⟩

end Shape
end Cwmp
