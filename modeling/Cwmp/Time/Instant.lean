import Cwmp.Time.Calendar

/-! # Instants

A moment of universal time: whole seconds since 1970 and a fraction in nanoseconds. A leap second
is kept as the second before it with a fraction of one second or more, so the order of instants is
the order of the pairs. Two instants serve as marks: `unknown` and `infinite`.
-/
namespace Cwmp

/-- Seconds that fall into the years from -262143 to 262142, and a fraction below one second, or
below two in the last second of a minute. -/
def Instant.Valid (seconds : Int) (nanos : Nat) : Prop :=
  -8334601228800 ≤ seconds ∧ seconds ≤ 8210266876799 ∧
    (nanos < 1000000000 ∨ (nanos < 2000000000 ∧ seconds % 60 = 59))

instance (seconds : Int) (nanos : Nat) : Decidable (Instant.Valid seconds nanos) :=
  inferInstanceAs (Decidable (_ ∧ _ ∧ _))

/-- A moment of universal time. -/
structure Instant where
  seconds : Int
  nanos : Nat
  valid : Instant.Valid seconds nanos := by decide
deriving DecidableEq

namespace Instant

/-- The instant with these parts, if there is one. -/
def ofParts? (seconds : Int) (nanos : Nat) : Option Instant :=
  if h : Valid seconds nanos then some ⟨seconds, nanos, h⟩ else none

/-- The mark of a time that is not known: the first moment of year 1. -/
def unknown : Instant where
  seconds := -62135596800
  nanos := 0

/-- The mark of a time that never comes: the last second of year 9999. -/
def infinite : Instant where
  seconds := 253402300799
  nanos := 0

instance : Inhabited Instant := ⟨unknown⟩

/-- Earlier than, or the same as. -/
protected def le (a b : Instant) : Prop :=
  a.seconds < b.seconds ∨ (a.seconds = b.seconds ∧ a.nanos ≤ b.nanos)

instance : LE Instant := ⟨Instant.le⟩

instance (a b : Instant) : Decidable (a ≤ b) :=
  inferInstanceAs (Decidable (_ ∨ _))

theorem le_def {a b : Instant} :
    a ≤ b ↔ a.seconds < b.seconds ∨ (a.seconds = b.seconds ∧ a.nanos ≤ b.nanos) :=
  Iff.rfl

theorem le_trans {a b c : Instant} (hab : a ≤ b) (hbc : b ≤ c) : a ≤ c := by
  simp only [le_def] at *
  omega

@[simp] theorem ofParts?_parts (t : Instant) : ofParts? t.seconds t.nanos = some t := by
  simp [ofParts?, t.valid]

def date (t : Instant) : Calendar.Date :=
  .ofDays (t.seconds / 86400)

/-- The second of its day in which an instant falls, from 0 to 86399. -/
def secondOfDay (t : Instant) : Nat :=
  (t.seconds % 86400).toNat

end Instant
end Cwmp
