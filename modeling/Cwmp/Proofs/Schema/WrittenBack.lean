import Cwmp.Proofs.Entity.Tidy
import Cwmp.Proofs.Time.Years

/-! # Reading what was written of a value that was read

Every text of a value that was read is read again, and to a value of the same text, but for times of
the years next to those of four digits. Such times are read from texts whose offset takes them over
the edge of these years, and their own texts are refused.
-/
namespace Cwmp

open Text

namespace Value

def whole : Value → Value
  | moment t => moment t.whole
  | v => v

/-- No time, or one in the years of four digits. -/
def InEra : Value → Prop
  | moment t => 0 ≤ t.date.year ∧ t.date.year ≤ 9999
  | _ => True

instance : ∀ v : Value, Decidable v.InEra
  | moment t => inferInstanceAs (Decidable (0 ≤ t.date.year ∧ t.date.year ≤ 9999))
  | boolean _ | int _ | unsigned _ | text _ | list _ => .isTrue trivial

theorem write_whole (v : Value) : v.whole.write = v.write := by
  cases v with
  | moment t =>
    have hnanos : t.nanos / 1000000000 * 1000000000 / 1000000000 = t.nanos / 1000000000 := by omega
    simp only [whole, write, Rfc3339.write, Rfc3339.clockText, Instant.whole, Instant.date,
      Instant.secondOfDay, hnanos]
  | _ => rfl

end Value

/-- The values that a text is read to, whatever the bounds of the kind. -/
inductive Kind.Yields : Kind → Value → Prop
  | boolean (b : Bool) : Yields .boolean (.boolean b)
  | int {bottom top i : Int} : int64Min ≤ i → i ≤ int64Max → Yields (.int bottom top) (.int i)
  | unsigned {bottom top n : Nat} : n ≤ uint64Max → Yields (.unsigned bottom top) (.unsigned n)
  | text {maxLength : Option Nat} (s : String) : Yields (.text maxLength) (.text s)
  | choice {words : List String} (s : String) : Yields (.choice words) (.text s)
  | moment (t : Instant) : Yields .moment (.moment t)
  | ipv4 (s : String) : Yields .ipv4 (.text s)
  | mac (s : String) : Yields .mac (.text s)
  | list {maxLength : Option Nat} {items : List String} : (∀ s ∈ items, IsItem s) →
      Yields (.list maxLength) (.list items)

namespace Kind

theorem yields_of_read {k : Kind} {text : String} {v : Value} (h : k.read text = .ok v) :
    k.Yields v := by
  cases k with
  | boolean =>
    simp only [read] at h
    split_ifs at h
    all_goals
      cases h
      exact .boolean _
  | int =>
    simp only [read] at h
    split at h
    next i hi =>
      cases h
      simp only [signed?, Option.filter_eq_some_iff, decide_eq_true_eq] at hi
      exact .int hi.2.1 hi.2.2
    next => cases h
  | unsigned =>
    simp only [read] at h
    split at h
    next n hn =>
      cases h
      exact .unsigned (unsigned?_le hn)
    next => cases h
  | moment =>
    simp only [read] at h
    split at h <;> cases h
    exact .moment _
  | list =>
    cases h
    exact .list fun _ => isItem_of_mem_commaItems
  | text =>
    cases h
    exact .text _
  | choice =>
    cases h
    exact .choice _
  | ipv4 =>
    cases h
    exact .ipv4 _
  | mac =>
    cases h
    exact .mac _

/-- The text of a value in the era of four-digit years is read, to the second. -/
theorem Yields.read_write {k : Kind} {v : Value} (h : k.Yields v) (hera : v.InEra) :
    k.read v.write = .ok v.whole := by
  cases h with
  | boolean b => cases b <;> rfl
  | int hb ht => exact Shape.read_decimalInt hb ht
  | unsigned ht => exact Shape.read_decimal ht
  | moment t =>
    simp only [read, Value.write, Rfc3339.trimmed_write, Rfc3339.read_write_of_year hera]
    rfl
  | list hitems => exact congrArg (Except.ok ∘ Value.list) (commaItems_commaText hitems)
  | text | choice | ipv4 | mac => rfl

theorem read_write_of_not_inEra {k : Kind} {v : Value} (h : k.Yields v) (hera : ¬ v.InEra) :
    k.read v.write = .error (.notMoment v.write .invalid) := by
  cases h with
  | moment t => simp only [read, Value.write, Rfc3339.trimmed_write,
      Rfc3339.read_write_of_not_year hera]
  | _ => exact absurd trivial hera

theorem year_of_read {k : Kind} {text : String} {t : Instant} (h : k.read text = .ok (.moment t)) :
    -1 ≤ t.date.year ∧ t.date.year ≤ 10000 := by
  cases k with
  | moment =>
    simp only [read] at h
    split at h
    next hread =>
      cases h
      exact Rfc3339.year_of_read hread
    next => cases h
  | _ => cases yields_of_read h

/-- Reading a text, writing the value and reading it again gives the value to the second, which is
written the same, or the value is a time next to the years of four digits and is not read again. -/
theorem read_write_of_read {k : Kind} {text : String} {v : Value} (h : k.read text = .ok v) :
    (v.InEra ∧ k.read v.write = .ok v.whole ∧ v.whole.write = v.write) ∨
      ∃ t, v = .moment t ∧ (t.date.year = -1 ∨ t.date.year = 10000) ∧
        k.read v.write = .error (.notMoment v.write .invalid) := by
  by_cases hera : v.InEra
  · exact .inl ⟨hera, (yields_of_read h).read_write hera, v.write_whole⟩
  · cases v with
    | moment t =>
      have hyear := year_of_read h
      simp only [Value.InEra] at hera
      exact .inr ⟨t, rfl, by omega, read_write_of_not_inEra (yields_of_read h) hera⟩
    | _ => exact absurd trivial hera

end Kind

namespace Shape

/-- What an object stores is such as reading gives it, if documents keep it. -/
theorem yields_value {s : Shape} {a : s.Carrier} (h : (s.value a).Tidy) :
    s.kind.Yields (s.value a) := by
  cases s with
  | boolean => exact .boolean _
  | int =>
    have hle := Int32.le_toInt a
    have hlt := Int32.toInt_lt a
    exact .int (by simp only [int64Min]; omega) (by simp only [int64Max]; omega)
  | unsigned =>
    have hlt := UInt32.toNat_lt a
    exact .unsigned (by simp only [uint64Max]; omega)
  | text => exact .text _
  | choice => exact .choice _
  | moment => exact .moment _
  | ipv4 => exact .ipv4 _
  | mac => exact .mac _
  | list => exact .list h

theorem write_canonical_whole (s : Shape) (a : s.Carrier) :
    (s.canonical (s.value a).whole).write = (s.value a).write := by
  cases s with
  | moment => exact Value.write_whole (.moment a)
  | ipv4 => exact congrArg Value.write (canonical_value ipv4 a)
  | mac => exact congrArg Value.write (canonical_value mac a)
  | _ => rfl

theorem accepts_whole {k : Kind} {v : Value} (h : k.Accepts v) : k.Accepts v.whole := by
  rw [Kind.accepts_iff] at h ⊢
  cases h with
  | moment t => exact .moment t.whole
  | boolean b => exact .boolean b
  | int hb ht => exact .int hb ht
  | unsigned hb ht => exact .unsigned hb ht
  | text ht => exact .text ht
  | choice hmem => exact .choice hmem
  | ipv4 hread => exact .ipv4 hread
  | mac hread => exact .mac hread
  | list hitems => exact .list hitems

end Shape
end Cwmp
