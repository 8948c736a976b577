import Cwmp.Time.Calendar
import Mathlib.Tactic

/-! # Days and dates

The date of a day occurs in the calendar, and counting its days gives the day back.
-/
namespace Cwmp.Calendar

def yearLength (year : Int) : Nat :=
  if isLeap year then 366 else 365

theorem isLeap_iff {year : Int} :
    isLeap year = true ↔ year % 4 = 0 ∧ (year % 100 ≠ 0 ∨ year % 400 = 0) := by
  simp [isLeap]

theorem sum_monthLengths (year : Int) : (monthLengths (isLeap year)).sum = yearLength year := by
  unfold yearLength
  cases isLeap year <;> rfl

theorem daysBeforeYear_eq {cycles centuries fours years : Int} (hc : 0 ≤ centuries ∧ centuries ≤ 3)
    (hf : 0 ≤ fours ∧ fours ≤ 24) (hy : 0 ≤ years ∧ years ≤ 3) :
    daysBeforeYear (400 * cycles + 100 * centuries + 4 * fours + years + 1) =
      146097 * cycles + 36524 * centuries + 1461 * fours + 365 * years := by
  simp only [daysBeforeYear]
  omega

/-- The last year of a group of four is a leap year, unless the group ends a century that does not
end a cycle. -/
theorem yearLength_eq {cycles centuries fours years : Int} (hc : 0 ≤ centuries ∧ centuries ≤ 3)
    (hf : 0 ≤ fours ∧ fours ≤ 24) (hy : 0 ≤ years ∧ years ≤ 3) :
    yearLength (400 * cycles + 100 * centuries + 4 * fours + years + 1) =
      if years = 3 ∧ (fours ≠ 24 ∨ centuries = 3) then 366 else 365 := by
  unfold yearLength
  refine if_congr (isLeap_iff.trans ?_) rfl rfl
  omega

/-- Days are counted from the beginning of the year in which they fall. -/
theorem yearAndDay_spec (n : Int) : daysBeforeYear (yearAndDay n).1 + (yearAndDay n).2 = n ∧
    (yearAndDay n).2 < yearLength (yearAndDay n).1 := by
  have hc : 0 ≤ min 3 (n % 146097 / 36524) ∧ min 3 (n % 146097 / 36524) ≤ 3 := by omega
  have hf : 0 ≤ (n % 146097 - min 3 (n % 146097 / 36524) * 36524) / 1461 ∧
      (n % 146097 - min 3 (n % 146097 / 36524) * 36524) / 1461 ≤ 24 := by omega
  have hy : 0 ≤ min 3 ((n % 146097 - min 3 (n % 146097 / 36524) * 36524) % 1461 / 365) ∧
      min 3 ((n % 146097 - min 3 (n % 146097 / 36524) * 36524) % 1461 / 365) ≤ 3 := by omega
  simp only [yearAndDay]
  rw [daysBeforeYear_eq hc hf hy, yearLength_eq hc hf hy]
  constructor
  · omega
  · split_ifs with hlong <;> omega

/-- Going through months of these lengths, the `n`th day falls into one of them. -/
theorem monthAndDay_spec {lengths : List Nat} : ∀ (first : Nat) {n : Nat}, n < lengths.sum →
    ∃ k < lengths.length, (monthAndDay first lengths n).1 = first + k ∧
      (lengths.take k).sum + (monthAndDay first lengths n).2 = n + 1 ∧
      1 ≤ (monthAndDay first lengths n).2 ∧
      (monthAndDay first lengths n).2 ≤ lengths.getD k 0 := by
  induction lengths with
  | nil =>
    intro first n hn
    simp at hn
  | cons length rest ih =>
    intro first n hn
    rw [List.sum_cons] at hn
    unfold monthAndDay
    split_ifs with hlt
    · exact ⟨0, by simp, rfl, by simp, Nat.le_add_left 1 n, by simpa using hlt⟩
    · have hlater : n - length < rest.sum := by omega
      obtain ⟨k, hk, hmonth, hsum, hpos, hle⟩ := ih (first + 1) hlater
      refine ⟨k + 1, by simpa using hk, by omega, ?_, hpos, by simpa using hle⟩
      rw [List.take_succ_cons, List.sum_cons]
      omega

namespace Date

/-- The date of a day occurs in the calendar and is numbered by this day. -/
theorem ofDays_spec (n : Int) : (ofDays n).Exists ∧ (ofDays n).toDays = n := by
  obtain ⟨hyear, hday⟩ := yearAndDay_spec (n + epochDay)
  rw [← sum_monthLengths] at hday
  obtain ⟨k, hk, hmonth, hsum, hpos, hle⟩ := monthAndDay_spec 1 hday
  have hlength : (monthLengths (isLeap (yearAndDay (n + epochDay)).1)).length = 12 := rfl
  rw [hlength] at hk
  have hk' : 1 + k - 1 = k := by omega
  constructor
  · simp only [ofDays, Exists, daysInMonth, hmonth, hk']
    rw [if_neg (by omega)]
    exact ⟨by omega, by omega, hpos, hle⟩
  · simp only [ofDays, toDays, daysBeforeMonth, hmonth, hk']
    rw [List.sum] at hsum
    omega

theorem exists_ofDays (n : Int) : (ofDays n).Exists :=
  (ofDays_spec n).1

@[simp] theorem toDays_ofDays (n : Int) : (ofDays n).toDays = n :=
  (ofDays_spec n).2

theorem Exists.lt_hundred {d : Date} (h : d.Exists) : d.month < 100 ∧ d.day < 100 := by
  obtain ⟨-, hmonth, -, hday⟩ := h
  refine ⟨by omega, ?_⟩
  have hall : ∀ leap : Bool, ∀ m < 12, (monthLengths leap).getD m 0 < 100 := by decide
  unfold daysInMonth at hday
  split_ifs at hday
  · omega
  · exact hday.trans_lt (hall _ _ (by omega))

end Date
end Cwmp.Calendar
