import Cwmp.Proofs.Answers
import Cwmp.Proofs.Time.Rfc3339

/-! # The years of read date-times

The strict reader takes years of four digits only. The offset may move an instant over the edge of
these years, into the year before year 0 or into the year after year 9999, but no further.
-/
namespace Cwmp

namespace Text

theorem digitsFrom_lt {s : List Char} : ∀ {acc n : Nat}, digitsFrom acc s = some n →
    n < (acc + 1) * 10 ^ s.length := by
  induction s with
  | nil =>
    intro acc n h
    obtain rfl := Option.some.inj h
    simp
  | cons c rest ih =>
    intro acc n h
    obtain ⟨d, hd, hrest⟩ := Option.bind_eq_some_iff.1 h
    have hdigit : d < 10 := by
      unfold digit? at hd
      split_ifs at hd with hc
      obtain rfl := Option.some.inj hd
      have htop : c.toNat ≤ 57 := hc.2
      have hzero : '0'.toNat = 48 := rfl
      omega
    calc n < (10 * acc + d + 1) * 10 ^ rest.length := ih hrest
      _ ≤ (acc + 1) * 10 * 10 ^ rest.length := Nat.mul_le_mul_right _ (by omega)
      _ = (acc + 1) * 10 ^ (c :: rest).length := by rw [List.length_cons, pow_succ]; ring

theorem digits?_lt {s : List Char} {n : Nat} (h : digits? s = some n) : n < 10 ^ s.length := by
  cases s with
  | nil => cases h
  | cons c rest => simpa using digitsFrom_lt h

end Text

namespace Calendar

theorem Date.Exists.daysBeforeMonth_add_le {d : Date} (h : d.Exists) :
    daysBeforeMonth d.year d.month + d.day ≤ 366 := by
  obtain ⟨hmonth, hmonth', -, hday⟩ := h
  have hall : ∀ leap : Bool, ∀ m < 13, ((monthLengths leap).take (m - 1)).foldr (· + ·) 0 +
      (monthLengths leap).getD (m - 1) 0 ≤ 366 := by decide
  have hlength := hall (isLeap d.year) d.month (by omega)
  unfold daysInMonth at hday
  rw [if_neg (by omega)] at hday
  unfold daysBeforeMonth
  omega

theorem Date.Exists.toDays_bounds {d : Date} (h : d.Exists) (hyear : 0 ≤ d.year)
    (hyear' : d.year ≤ 9999) : -719528 ≤ d.toDays ∧ d.toDays ≤ 2932897 := by
  have hday := h.daysBeforeMonth_add_le
  have hpos := h.2.2.1
  simp only [toDays, daysBeforeYear, epochDay]
  omega

theorem yearLength_le (year : Int) : yearLength year ≤ 366 := by
  unfold yearLength
  split_ifs <;> omega

theorem Date.year_ofDays_bounds {n : Int} (h : -719530 ≤ n) (h' : n ≤ 2932899) :
    -1 ≤ (ofDays n).year ∧ (ofDays n).year ≤ 10000 := by
  obtain ⟨hdays, hrest⟩ := yearAndDay_spec (n + epochDay)
  have hlength := yearLength_le (yearAndDay (n + epochDay)).1
  simp only [daysBeforeYear, epochDay] at hdays
  simp only [ofDays, epochDay]
  simp only [epochDay] at hrest hlength
  omega

end Calendar

namespace Rfc3339

open Text Calendar

theorem exactly_lt {n value : Nat} {s rest : List Char} (h : exactly n s = .ok (value, rest)) :
    value < 10 ^ n := by
  simp only [exactly] at h
  split_ifs at h with hlength
  split at h
  next hdigits =>
    cases h
    exact hlength ▸ digits?_lt hdigits
  next => cases h

/-- What a date-time says that was read: an existing date in a year of four digits and a time on the
clock, and there is such an instant. -/
theorem exists_civil_of_read {text : String} {t : Instant} (h : read text = .ok t) :
    ∃ c : Civil, c.date.Exists ∧ 0 ≤ c.date.year ∧ c.date.year ≤ 9999 ∧ c.OnClock ∧
      c.toInstant? = some t := by
  unfold read at h
  obtain ⟨-, h⟩ := check_bind_eq_ok_iff.1 h
  obtain ⟨⟨year, s⟩, hyear, h⟩ := bind_eq_ok_iff.1 h
  obtain ⟨s, -, h⟩ := bind_eq_ok_iff.1 h
  obtain ⟨⟨month, s⟩, -, h⟩ := bind_eq_ok_iff.1 h
  obtain ⟨s, -, h⟩ := bind_eq_ok_iff.1 h
  obtain ⟨⟨day, s⟩, -, h⟩ := bind_eq_ok_iff.1 h
  obtain ⟨hexists, h⟩ := check_bind_eq_ok_iff.1 h
  obtain ⟨s, -, h⟩ := bind_eq_ok_iff.1 h
  obtain ⟨⟨hour, s⟩, -, h⟩ := bind_eq_ok_iff.1 h
  obtain ⟨s, -, h⟩ := bind_eq_ok_iff.1 h
  obtain ⟨⟨minute, s⟩, -, h⟩ := bind_eq_ok_iff.1 h
  obtain ⟨s, -, h⟩ := bind_eq_ok_iff.1 h
  obtain ⟨⟨second, s⟩, -, h⟩ := bind_eq_ok_iff.1 h
  obtain ⟨⟨nanos, s⟩, -, h⟩ := bind_eq_ok_iff.1 h
  obtain ⟨hclock, h⟩ := check_bind_eq_ok_iff.1 h
  obtain ⟨⟨offset, s⟩, -, h⟩ := bind_eq_ok_iff.1 h
  obtain ⟨-, h⟩ := check_bind_eq_ok_iff.1 h
  have hlt : year < 10 ^ 4 := exactly_lt hyear
  split at h
  next hinstant =>
    obtain rfl := Except.ok.inj h
    have hyear' : (year : Int) ≤ 9999 := by omega
    exact ⟨⟨⟨year, month, day⟩, hour, minute, second, nanos, offset⟩, not_not.1 hexists,
      Int.natCast_nonneg year, hyear', not_not.1 hclock, hinstant⟩
  next => cases h

theorem Civil.toInstant?_bounds {c : Civil} {t : Instant} (hclock : c.OnClock)
    (h : c.toInstant? = some t) : (c.date.toDays - 1) * 86400 < t.seconds ∧
      t.seconds < (c.date.toDays + 2) * 86400 := by
  obtain ⟨hhour, hminute, hsecond⟩ := hclock
  unfold toInstant? at h
  split_ifs at h with hoffset
  dsimp only at h
  unfold Instant.ofParts? at h
  split_ifs at h
  all_goals
    obtain rfl := Option.some.inj h
    dsimp only
    omega

/-- An instant that was read falls into a year of four digits, the year before them or the year
after them. -/
theorem year_of_read {text : String} {t : Instant} (h : read text = .ok t) :
    -1 ≤ t.date.year ∧ t.date.year ≤ 10000 := by
  obtain ⟨c, hexists, hyear, hyear', hclock, hinstant⟩ := exists_civil_of_read h
  obtain ⟨hdays, hdays'⟩ := hexists.toDays_bounds hyear hyear'
  obtain ⟨hseconds, hseconds'⟩ := Civil.toInstant?_bounds hclock hinstant
  apply Date.year_ofDays_bounds <;> omega

end Rfc3339
end Cwmp
