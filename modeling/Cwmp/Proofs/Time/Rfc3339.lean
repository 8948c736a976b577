import Cwmp.Proofs.Text.CommaList
import Cwmp.Proofs.Text.Decimal
import Cwmp.Proofs.Time.Calendar
import Cwmp.Time.Rfc3339

/-! # Date-times read back

The exact text of an instant is read back by the loose reader. The text to the second is read back
by the strict reader up to the fraction, provided that the year takes four digits, and is refused
otherwise.
-/
namespace Cwmp

namespace Instant

/-- The instant without its fraction of a second. A leap second stays one. -/
def whole (t : Instant) : Instant where
  seconds := t.seconds
  nanos := t.nanos / 1000000000 * 1000000000
  valid := by
    have := t.valid
    simp only [Valid] at this ⊢
    omega

theorem whole_eq_self_iff {t : Instant} : t.whole = t ↔ t.nanos = 0 ∨ t.nanos = 1000000000 := by
  obtain ⟨seconds, nanos, hvalid⟩ := t
  simp only [whole, mk.injEq, true_and]
  simp only [Valid] at hvalid
  omega

theorem secondOfDay_lt (t : Instant) : t.secondOfDay < 86400 := by
  simp only [secondOfDay]
  omega

theorem seconds_eq (t : Instant) : t.date.toDays * 86400 + t.secondOfDay = t.seconds := by
  rw [date, Calendar.Date.toDays_ofDays, secondOfDay]
  omega

end Instant

namespace Rfc3339

open Text Calendar

section Parts

variable {width n : Nat} {rest : List Char}

theorem exactly_padded (hpos : 0 < width) (h : n < 10 ^ width) :
    exactly width ((padded width n).toList ++ rest) = .ok (n, rest) := by
  have hlength := length_padded hpos h
  simp only [exactly, List.take_left' hlength, hlength, ↓reduceIte, digits?_padded,
    List.drop_left' hlength]

theorem dropBlanks_padded : dropBlanks ((padded width n).toList ++ rest) =
    (padded width n).toList ++ rest := by
  cases hpadded : (padded width n).toList with
  | nil => exact absurd hpadded (padded_ne_nil width n)
  | cons c more =>
    have hmem : c ∈ (padded width n).toList := hpadded ▸ List.mem_cons_self
    have hdigit := isDigit_of_mem_padded hmem
    exact List.dropWhile_cons_of_neg (by simp [isBlank_of_isDigit hdigit])

theorem padded_append_ne_cons {c : Char} (hc : isDigit c = false) {s : List Char} :
    (padded width n).toList ++ rest ≠ c :: s := by
  intro h
  cases hpadded : (padded width n).toList with
  | nil => exact absurd hpadded (padded_ne_nil width n)
  | cons d more =>
    have hmem : d ∈ (padded width n).toList := hpadded ▸ List.mem_cons_self
    have hdigit := isDigit_of_mem_padded hmem
    rw [hpadded, List.cons_append] at h
    obtain ⟨rfl, -⟩ := List.cons.inj h
    exact Bool.false_ne_true (hc.symm.trans hdigit)

theorem takeWhile_padded (hrest : ∀ c ∈ rest.head?, isDigit c = false) :
    ((padded width n).toList ++ rest).takeWhile isDigit = (padded width n).toList := by
  rw [List.takeWhile_append_of_pos fun _ => isDigit_of_mem_padded]
  cases rest with
  | nil => simp
  | cons c more => rw [List.takeWhile_cons_of_neg (by simp [hrest c rfl]), List.append_nil]

theorem dropWhile_padded (hrest : ∀ c ∈ rest.head?, isDigit c = false) :
    ((padded width n).toList ++ rest).dropWhile isDigit = rest := by
  rw [List.dropWhile_append_of_pos fun _ => isDigit_of_mem_padded]
  cases rest with
  | nil => rfl
  | cons c more => exact List.dropWhile_cons_of_neg (by simp [hrest c rfl])

theorem upTo_padded (hpos : 0 < width) (h : n < 10 ^ width) :
    upTo width ((padded width n).toList ++ rest) = some (n, rest) := by
  have hlength := length_padded hpos h
  have hhead : ((padded width n).toList).takeWhile isDigit = (padded width n).toList :=
    List.takeWhile_eq_self_iff.2 fun _ => isDigit_of_mem_padded
  simp only [upTo, dropBlanks_padded, List.take_left' hlength, hhead, digits?_padded,
    Option.map_some, List.drop_left' rfl]

end Parts

theorem looseYear_minus {digits rest : List Char} {n : Nat} (hn : digits? digits = some n)
    (htake : (digits ++ rest).takeWhile isDigit = digits)
    (hdrop : (digits ++ rest).dropWhile isDigit = rest) :
    looseYear ('-' :: (digits ++ rest)) = some (-(n : Int), rest) ∧
      looseYear ('+' :: (digits ++ rest)) = some ((n : Int), rest) := by
  have hminus : ∀ s, looseYear ('-' :: s) = (digits? (s.takeWhile isDigit)).map fun n =>
      (-(n : Int), s.dropWhile isDigit) := fun _ => rfl
  have hplus : ∀ s, looseYear ('+' :: s) = (digits? (s.takeWhile isDigit)).map fun n =>
      ((n : Int), s.dropWhile isDigit) := fun _ => rfl
  rw [hminus, hplus, htake, hdrop, hn]
  exact ⟨rfl, rfl⟩

theorem looseYear_yearText (year : Int) (rest : List Char) :
    looseYear ((yearText year).toList ++ '-' :: rest) = some (year, '-' :: rest) := by
  have hmark : ∀ c ∈ ('-' :: rest).head?, isDigit c = false := by
    rintro c ⟨⟩
    rfl
  obtain ⟨hminus, hplus⟩ := looseYear_minus (digits?_padded 4 year.natAbs)
    (takeWhile_padded hmark) (dropWhile_padded hmark)
  unfold yearText
  split_ifs with hfour hneg
  · unfold looseYear
    rw [dropBlanks_padded]
    split
    next more heq => exact absurd heq (padded_append_ne_cons rfl)
    next more heq => exact absurd heq (padded_append_ne_cons rfl)
    next =>
      rw [upTo_padded (by omega) (by omega)]
      simp [hfour.1]
  · simpa [abs_of_neg hneg] using hminus
  · simpa [abs_of_nonneg (not_lt.1 hneg)] using hplus

/-- The digits after a point are read as nanoseconds. -/
theorem fraction_padded (width n : Nat) (hpos : 0 < width) (hle : width ≤ 9)
    (h : n < 10 ^ width) : fraction ('.' :: ((padded width n).toList ++ ['Z'])) =
      .ok (n * 10 ^ (9 - width), ['Z']) := by
  have hmark : ∀ c ∈ ['Z'].head?, isDigit c = false := by
    rintro c ⟨⟩
    rfl
  have hlength := length_padded hpos h
  have htake : (padded width n).toList.take 9 = (padded width n).toList :=
    List.take_of_length_le (hlength.trans_le hle)
  have hnanos : nanosOf (padded width n).toList = n * 10 ^ (9 - width) := by
    simp only [nanosOf, htake, digits?_padded, Option.getD_some, hlength, Nat.pow_eq]
  rw [fraction.eq_def]
  split
  next heq => simp at heq
  next rest _ heq =>
    obtain ⟨-, rfl⟩ := List.cons.inj heq
    simp only [takeWhile_padded hmark, dropWhile_padded hmark, padded_ne_nil, ↓reduceIte, hnanos]
  next hnot => exact absurd rfl (hnot _)

theorem fraction_fractionText {nanos : Nat} (h : nanos < 1000000000) :
    fraction ((fractionText nanos).toList ++ ['Z']) = .ok (nanos, ['Z']) := by
  unfold fractionText
  split_ifs with hzero hmilli hmicro
  · rw [hzero]
    rfl
  · have hread := fraction_padded 3 (nanos / 1000000) (by omega) (by omega) (by omega)
    simpa [Nat.div_mul_cancel (Nat.dvd_of_mod_eq_zero hmilli)] using hread
  · have hread := fraction_padded 6 (nanos / 1000) (by omega) (by omega) (by omega)
    simpa [Nat.div_mul_cancel (Nat.dvd_of_mod_eq_zero hmicro)] using hread
  · simpa using fraction_padded 9 nanos (by omega) (by omega) (by omega)

theorem toList_clockText (t : Instant) (rest : List Char) : (clockText t).toList ++ rest =
    (yearText t.date.year).toList ++ '-' :: ((padded 2 t.date.month).toList ++
      '-' :: ((padded 2 t.date.day).toList ++ 'T' :: ((padded 2 (t.secondOfDay / 3600)).toList ++
        ':' :: ((padded 2 (t.secondOfDay / 60 % 60)).toList ++ ':' ::
          ((padded 2 (t.secondOfDay % 60 + t.nanos / 1000000000)).toList ++ rest))))) := by
  simp [clockText]

/-- What the text of an instant says, the fraction being given in nanoseconds. -/
def civil (t : Instant) (nanos : Nat) : Civil where
  date := t.date
  hour := t.secondOfDay / 3600
  minute := t.secondOfDay / 60 % 60
  second := t.secondOfDay % 60 + t.nanos / 1000000000
  nanos := nanos
  offset := 0

theorem onClock_civil (t : Instant) (nanos : Nat) : (civil t nanos).OnClock := by
  have hday := t.secondOfDay_lt
  have hvalid := t.valid
  simp only [Instant.Valid] at hvalid
  simp only [Civil.OnClock, civil]
  omega

theorem second_eq_sixty_iff (t : Instant) :
    t.secondOfDay % 60 + t.nanos / 1000000000 = 60 ↔ 1000000000 ≤ t.nanos := by
  have hvalid := t.valid
  simp only [Instant.Valid] at hvalid
  simp only [Instant.secondOfDay]
  omega

theorem toInstant?_civil {t u : Instant} {nanos : Nat} (hseconds : u.seconds = t.seconds)
    (hnanos : u.nanos = nanos + t.nanos / 1000000000 * 1000000000) :
    (civil t nanos).toInstant? = some u := by
  have hleap := second_eq_sixty_iff t
  have hvalid := t.valid
  have hseconds' := t.seconds_eq
  have hu := Instant.ofParts?_parts u
  simp only [Instant.Valid] at hvalid
  unfold Civil.toInstant?
  rw [if_pos (by simp [civil])]
  simp only [civil, hleap]
  split_ifs with h
  · rw [← hu, hseconds, hnanos]
    congr 1 <;> omega
  · rw [← hu, hseconds, hnanos]
    congr 1 <;> omega

theorem parts_lt (t : Instant) : t.date.month < 100 ∧ t.date.day < 100 ∧
    t.secondOfDay / 3600 < 100 ∧ t.secondOfDay / 60 % 60 < 100 ∧
      t.secondOfDay % 60 + t.nanos / 1000000000 < 100 := by
  have hdate := (Date.exists_ofDays (t.seconds / 86400)).lt_hundred
  have hday := t.secondOfDay_lt
  have hclock := onClock_civil t 0
  simp only [Civil.OnClock, civil] at hclock
  exact ⟨hdate.1, hdate.2, by omega, by omega, by omega⟩

/-- Every instant is read back from its exact text. -/
@[simp] theorem readLoose_writeExact (t : Instant) : readLoose (writeExact t) = some t := by
  obtain ⟨hmonth, hday, hhour, hminute, hsecond⟩ := parts_lt t
  have hfraction := fraction_fractionText (Nat.mod_lt t.nanos (by omega : 0 < 1000000000))
  have hinstant : (civil t (t.nanos % 1000000000)).toInstant? = some t :=
    toInstant?_civil rfl (by omega)
  have hexists : (civil t (t.nanos % 1000000000)).date.Exists := Date.exists_ofDays _
  have hclock := onClock_civil t (t.nanos % 1000000000)
  have hmark : ∀ c s, isBlank c = false → mark c (c :: s) = some s := by
    intro c s hc
    simp [mark, dropBlanks, hc]
  have htext : (writeExact t).toList = (clockText t).toList ++
      ((fractionText (t.nanos % 1000000000)).toList ++ ['Z']) := by
    simp [writeExact]
  unfold readLoose
  rw [htext, toList_clockText]
  refine Option.bind_eq_some_iff.2 ⟨_, looseYear_yearText _ _, ?_⟩
  refine Option.bind_eq_some_iff.2 ⟨_, hmark _ _ rfl, ?_⟩
  refine Option.bind_eq_some_iff.2 ⟨_, upTo_padded (by omega) hmonth, ?_⟩
  refine Option.bind_eq_some_iff.2 ⟨_, hmark _ _ rfl, ?_⟩
  refine Option.bind_eq_some_iff.2 ⟨_, upTo_padded (by omega) hday, ?_⟩
  refine Option.bind_eq_some_iff.2 ⟨_, rfl, ?_⟩
  refine Option.bind_eq_some_iff.2 ⟨_, upTo_padded (by omega) hhour, ?_⟩
  refine Option.bind_eq_some_iff.2 ⟨_, hmark _ _ rfl, ?_⟩
  refine Option.bind_eq_some_iff.2 ⟨_, upTo_padded (by omega) hminute, ?_⟩
  refine Option.bind_eq_some_iff.2 ⟨_, hmark _ _ rfl, ?_⟩
  refine Option.bind_eq_some_iff.2 ⟨_, upTo_padded (by omega) hsecond, ?_⟩
  refine Option.bind_eq_some_iff.2 ⟨_, congrArg Except.toOption hfraction, ?_⟩
  refine Option.bind_eq_some_iff.2 ⟨_, (rfl : _ = some ((0 : Int), [])), ?_⟩
  refine Option.bind_eq_some_iff.2 ⟨(), rfl, ?_⟩
  refine Option.bind_eq_some_iff.2 ⟨(), if_pos ⟨hexists, hclock⟩, ?_⟩
  exact hinstant

section Strict

variable {ε α β : Type} {x : Except ε α} {f : α → Except ε β}

theorem bind_of_ok {a : α} {y : Except ε β} (hx : x = .ok a) (hf : f a = y) : x >>= f = y := by
  rw [hx]
  exact hf

theorem bind_of_error {e : ε} (hx : x = .error e) : x >>= f = .error e := by
  rw [hx]
  rfl

end Strict

theorem length_le_byteLength (s : List Char) : s.length ≤ byteLength s := by
  induction s with
  | nil => rfl
  | cons c rest ih =>
    rw [List.length_cons, byteLength_cons]
    have := c.utf8Size_pos
    omega

theorem toList_write (t : Instant) : (write t).toList = (clockText t).toList ++ ['Z'] := by
  simp [write]

/-- No text of an instant is too short. -/
theorem not_byteLength_write_lt (t : Instant) : ¬ byteLength (write t).toList < 19 := by
  have hpart : ∀ n, 2 ≤ (padded 2 n).toList.length := by
    intro n
    rw [toList_padded, List.length_append, List.length_replicate]
    omega
  have hyear : 4 ≤ (yearText t.date.year).toList.length := by
    unfold yearText
    split_ifs <;> simp only [String.toList_append, List.length_append, toList_padded,
      List.length_replicate] <;> omega
  have hle := length_le_byteLength (write t).toList
  have hlength := congrArg List.length (toList_clockText t ['Z'])
  have h₁ := hpart t.date.month
  have h₂ := hpart t.date.day
  have h₃ := hpart (t.secondOfDay / 3600)
  have h₄ := hpart (t.secondOfDay / 60 % 60)
  have h₅ := hpart (t.secondOfDay % 60 + t.nanos / 1000000000)
  rw [← toList_write] at hlength
  simp only [List.length_append, List.length_cons, List.length_nil] at hlength
  omega

/-- An instant is read back from its text to the second, if its year takes four digits. -/
theorem read_write_of_year {t : Instant} (h : 0 ≤ t.date.year ∧ t.date.year ≤ 9999) :
    read (write t) = .ok t.whole := by
  obtain ⟨hmonth, hday, hhour, hminute, hsecond⟩ := parts_lt t
  have hyear : yearText t.date.year = padded 4 t.date.year.toNat := if_pos h
  have hdate : (⟨(t.date.year.toNat : Int), t.date.month, t.date.day⟩ : Date) = t.date := by
    rw [Int.toNat_of_nonneg h.1]
  have hexists : (⟨(t.date.year.toNat : Int), t.date.month, t.date.day⟩ : Date).Exists := by
    rw [hdate]
    exact Date.exists_ofDays _
  have hclock := onClock_civil t 0
  have hinstant : (civil t 0).toInstant? = some t.whole :=
    toInstant?_civil rfl (by simp [Instant.whole])
  rw [civil, ← hdate] at hclock hinstant
  unfold read
  refine (if_neg (not_byteLength_write_lt t)).trans ?_
  rw [toList_write, toList_clockText, hyear]
  refine bind_of_ok (exactly_padded (by omega) (by omega)) ?_
  refine bind_of_ok (rfl : expect _ ('-' :: _) = _) ?_
  refine bind_of_ok (exactly_padded (by omega) hmonth) ?_
  refine bind_of_ok (rfl : expect _ ('-' :: _) = _) ?_
  refine bind_of_ok (exactly_padded (by omega) hday) ?_
  refine (if_neg (not_not.2 hexists)).trans ?_
  refine bind_of_ok (rfl : expect _ ('T' :: _) = _) ?_
  refine bind_of_ok (exactly_padded (by omega) hhour) ?_
  refine bind_of_ok (rfl : expect _ (':' :: _) = _) ?_
  refine bind_of_ok (exactly_padded (by omega) hminute) ?_
  refine bind_of_ok (rfl : expect _ (':' :: _) = _) ?_
  refine bind_of_ok (exactly_padded (by omega) hsecond) ?_
  refine bind_of_ok (rfl : fraction ['Z'] = .ok (0, ['Z'])) ?_
  refine (if_neg (not_not.2 hclock)).trans ?_
  refine bind_of_ok (rfl : zone offsetColon ['Z'] = .ok (0, [])) ?_
  refine (if_neg (not_not.2 rfl)).trans ?_
  simp only [hinstant]

theorem read_write_of_not_year {t : Instant} (h : ¬ (0 ≤ t.date.year ∧ t.date.year ≤ 9999)) :
    read (write t) = .error .invalid := by
  obtain ⟨sign, hsign, hyear⟩ : ∃ sign, isDigit sign = false ∧
      (yearText t.date.year).toList = sign :: (padded 4 t.date.year.natAbs).toList := by
    unfold yearText
    rw [if_neg h]
    split_ifs
    · exact ⟨'-', rfl, by simp⟩
    · exact ⟨'+', rfl, by simp⟩
  unfold read
  refine (if_neg (not_byteLength_write_lt t)).trans ?_
  rw [toList_write, toList_clockText, hyear, List.cons_append]
  refine bind_of_error ?_
  simp only [exactly, List.take_succ_cons, digits?_eq_none List.mem_cons_self hsign]
  exact ite_self _

/-- An instant is read back from its text if and only if the text tells it apart from all others: it
has no fraction of a second, and its year takes four digits. -/
theorem read_write_iff {t : Instant} : read (write t) = .ok t ↔
    (t.nanos = 0 ∨ t.nanos = 1000000000) ∧ 0 ≤ t.date.year ∧ t.date.year ≤ 9999 := by
  by_cases h : 0 ≤ t.date.year ∧ t.date.year ≤ 9999
  · rw [read_write_of_year h, Except.ok.injEq, Instant.whole_eq_self_iff]
    simp [h]
  · rw [read_write_of_not_year h]
    simp [h]

/-- Nothing has to be trimmed from the text of an instant. -/
theorem trimmed_write (t : Instant) : trimmed (write t) = write t := by
  have hpadded : ∀ width n, ∀ c ∈ (padded width n).toList, isBlank c = false := fun width n c hc =>
    isBlank_of_isDigit (isDigit_of_mem_padded hc)
  have hyear : ∀ c ∈ (yearText t.date.year).toList, isBlank c = false := by
    unfold yearText
    split_ifs
    · exact hpadded _ _
    · rw [String.toList_append, List.forall_mem_append]
      exact ⟨List.forall_mem_singleton.2 rfl, hpadded _ _⟩
    · rw [String.toList_append, List.forall_mem_append]
      exact ⟨List.forall_mem_singleton.2 rfl, hpadded _ _⟩
  have hall : ∀ c ∈ (write t).toList, isBlank c = false := by
    rw [toList_write, toList_clockText]
    simp only [List.forall_mem_append, List.forall_mem_cons]
    exact ⟨hyear, rfl, hpadded _ _, rfl, hpadded _ _, rfl, hpadded _ _, rfl, hpadded _ _, rfl,
      hpadded _ _, rfl, by simp⟩
  rw [trimmed, trim_eq_self hall, String.ofList_toList]

end Rfc3339
end Cwmp
