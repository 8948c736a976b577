import Cwmp.Net.Octets
import Mathlib.Tactic

/-! # Octets bit by bit

Octet strings that are compared under a mask agree if and only if they have the same bits wherever
the mask has ones.
-/
namespace Cwmp.Octets

variable {n : Nat} {mask a b : Octets n}

theorem bytes_of_ofList? {bytes : List UInt8} (h : ofList? bytes = some a) : a.bytes = bytes := by
  unfold ofList? at h
  split_ifs at h
  cases h
  rfl

/-- The bits of an octet string from left to right, the highest bit of every octet first. -/
def bit (a : Octets n) (i : Nat) : Bool :=
  (a.bytes.getD (i / 8) 0).toNat.testBit (7 - i % 8)

/-- Octets are the same under a mask if their bits are. -/
theorem and_eq_and_iff {x y m : UInt8} : x &&& m = y &&& m ↔
    ∀ j < 8, m.toNat.testBit j = true → x.toNat.testBit j = y.toNat.testBit j := by
  have hhigh : ∀ (z : UInt8) {j : Nat}, 8 ≤ j → z.toNat.testBit j = false := fun z j hj =>
    Nat.testBit_lt_two_pow (Nat.lt_of_lt_of_le z.toNat_lt (Nat.pow_le_pow_right (by decide) hj))
  rw [← UInt8.toNat_inj, UInt8.toNat_and, UInt8.toNat_and]
  constructor
  · intro h j _ hm
    have hbit := congrArg (Nat.testBit · j) h
    simpa [Nat.testBit_and, hm] using hbit
  · intro h
    refine Nat.eq_of_testBit_eq fun j => ?_
    rw [Nat.testBit_and, Nat.testBit_and]
    cases hm : m.toNat.testBit j with
    | false => simp
    | true =>
      have hj : j < 8 := by
        by_contra hj
        exact Bool.false_ne_true ((hhigh m (Nat.not_lt.1 hj)).symm.trans hm)
      rw [h j hj hm]

/-- Strings agree under a mask if all their octets are the same under it. -/
theorem agree_iff : agree mask a b = true ↔ ∀ k < n,
    a.bytes.getD k 0 &&& mask.bytes.getD k 0 = b.bytes.getD k 0 &&& mask.bytes.getD k 0 := by
  have ha := a.length_eq
  have hb := b.length_eq
  have hmask := mask.length_eq
  simp only [agree, and, decide_eq_true_eq, mk.injEq]
  constructor
  · intro h k hk
    have hoctet := congrArg (·[k]?) h
    simpa [List.getElem?_zipWith, ha, hb, hmask, hk] using hoctet
  · intro h
    apply List.ext_getElem
    · simp [ha, hb, hmask]
    · intro k hk _
      have hlt : k < n := by simpa [ha, hmask] using hk
      simpa [ha, hb, hmask, hlt] using h k hlt

theorem agree_iff_bit : agree mask a b = true ↔
    ∀ i < 8 * n, mask.bit i = true → a.bit i = b.bit i := by
  simp only [agree_iff, and_eq_and_iff, bit]
  constructor
  · intro h i hi
    exact h (i / 8) (by omega) (7 - i % 8) (by omega)
  · intro h k hk j hj
    have hbit := h (8 * k + (7 - j)) (by omega)
    have hoctet : (8 * k + (7 - j)) / 8 = k := by omega
    have hplace : 7 - (8 * k + (7 - j)) % 8 = j := by omega
    rwa [hoctet, hplace] at hbit

end Cwmp.Octets
