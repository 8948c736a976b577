import Cwmp.Text.Decimal

/-! # Instance numbers

The position by which a row of a table is named: a number from 1 to 4294967295. The number after
the last one is the last one again.
-/
namespace Cwmp

/-- The number of a row. -/
structure InstanceNumber where
  number : Nat
  pos : 0 < number := by decide
  le_max : number ≤ Text.uint32Max := by decide
deriving DecidableEq

namespace InstanceNumber

theorem ext {i j : InstanceNumber} (h : i.number = j.number) : i = j := by
  cases i; cases j; cases h; rfl

def ofNat? (n : Nat) : Option InstanceNumber :=
  if h : 0 < n ∧ n ≤ Text.uint32Max then some ⟨n, h.1, h.2⟩ else none

def first : InstanceNumber where
  number := 1

instance : Inhabited InstanceNumber := ⟨first⟩

/-- The number given out after `i`. -/
def next (i : InstanceNumber) : InstanceNumber where
  number := min (i.number + 1) Text.uint32Max
  pos := by have := i.pos; simp only [Text.uint32Max]; omega
  le_max := Nat.min_le_right _ _

def max (i j : InstanceNumber) : InstanceNumber :=
  if i.number ≤ j.number then j else i

def text (i : InstanceNumber) : String :=
  Text.decimal i.number

/-- Reads a row number: decimal digits, perhaps after a plus sign. -/
def read (s : String) : Option InstanceNumber :=
  (Text.unsigned? Text.uint32Max s.toList).bind ofNat?

@[simp] theorem ofNat?_number (i : InstanceNumber) : ofNat? i.number = some i := by
  simp [ofNat?, i.pos, i.le_max]

theorem number_le_max_left (i j : InstanceNumber) : i.number ≤ (i.max j).number := by
  unfold max; split <;> omega

theorem number_le_max_right (i j : InstanceNumber) : j.number ≤ (i.max j).number := by
  unfold max; split <;> omega

end InstanceNumber
end Cwmp
