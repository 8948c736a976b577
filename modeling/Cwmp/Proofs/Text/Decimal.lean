import Cwmp.Text.Blank
import Cwmp.Text.Decimal
import Mathlib.Tactic

/-! # Decimal numbers read back

The digits that are written of a number are read as that number, with or without zeros before them,
and no blank or sign is among them.
-/
namespace Cwmp.Text

theorem isDigit_iff {c : Char} : isDigit c = true ↔ '0' ≤ c ∧ c ≤ '9' := by
  unfold isDigit digit?
  split_ifs with h <;> simp [h]

theorem isDigit_eq (c : Char) : isDigit c = c.isDigit := by
  rw [Bool.eq_iff_iff, isDigit_iff]
  simp [Char.isDigit, Char.le_def]

theorem digit?_of_isDigit {c : Char} (h : isDigit c = true) :
    digit? c = some (c.toNat - '0'.toNat) :=
  if_pos (isDigit_iff.1 h)

theorem isBlank_of_isDigit {c : Char} (h : isDigit c = true) : isBlank c = false := by
  obtain ⟨hlo, hhi⟩ := isDigit_iff.1 h
  have hlo' : 48 ≤ c.toNat := hlo
  have hhi' : c.toNat ≤ 57 := hhi
  have hne : ∀ n, 57 < n → (c.toNat == n) = false := by
    intro n hn
    simp only [beq_eq_false_iff_ne, ne_eq]
    omega
  unfold isBlank
  simp only [hne 0x85, hne 0xA0, hne 0x1680, hne 0x2028, hne 0x2029, hne 0x202F, hne 0x205F,
    hne 0x3000, Nat.reduceLT, Bool.or_false, Bool.or_eq_false_iff, Bool.and_eq_false_iff,
    decide_eq_false_iff_not, beq_eq_false_iff_ne, ne_eq]
  omega

theorem digitsFrom_eq {s : List Char} (h : ∀ c ∈ s, isDigit c = true) (acc : Nat) :
    digitsFrom acc s = some (Nat.ofDigitChars 10 s acc) := by
  induction s generalizing acc with
  | nil => simp [digitsFrom]
  | cons c rest ih =>
    rw [List.forall_mem_cons] at h
    simp only [digitsFrom, digit?_of_isDigit h.1, Option.bind_some, ih h.2, Nat.ofDigitChars_cons]

theorem digits?_eq {s : List Char} (hne : s ≠ []) (h : ∀ c ∈ s, isDigit c = true) :
    digits? s = some (Nat.ofDigitChars 10 s 0) := by
  cases s with
  | nil => exact absurd rfl hne
  | cons c rest => exact digitsFrom_eq h 0

theorem digitsFrom_eq_none {s : List Char} {c : Char} (hc : c ∈ s) (h : isDigit c = false)
    (acc : Nat) : digitsFrom acc s = none := by
  induction s generalizing acc with
  | nil => cases hc
  | cons d rest ih =>
    rcases List.mem_cons.1 hc with rfl | hc
    · have hnone : digit? c = none := by simpa [isDigit] using h
      simp [digitsFrom, hnone]
    · cases hd : digit? d with
      | none => simp [digitsFrom, hd]
      | some n => simp [digitsFrom, hd, ih hc]

theorem digits?_eq_none {s : List Char} {c : Char} (hc : c ∈ s) (h : isDigit c = false) :
    digits? s = none := by
  cases s with
  | nil => rfl
  | cons d rest => exact digitsFrom_eq_none hc h 0

theorem isDigit_of_mem_toDigits {n : Nat} {c : Char} (h : c ∈ Nat.toDigits 10 n) :
    isDigit c = true := by
  rw [isDigit_eq]
  exact Nat.isDigit_of_mem_toDigits (by omega) (by omega) h

@[simp] theorem digits?_toDigits (n : Nat) : digits? (Nat.toDigits 10 n) = some n := by
  rw [digits?_eq Nat.toDigits_ne_nil fun _ => isDigit_of_mem_toDigits]
  exact congrArg some Nat.ofDigitChars_ten_toDigits

theorem toList_padded (width n : Nat) : (padded width n).toList =
    List.replicate (width - (Nat.toDigits 10 n).length) '0' ++ Nat.toDigits 10 n := by
  simp [padded]

theorem isDigit_of_mem_padded {width n : Nat} {c : Char} (h : c ∈ (padded width n).toList) :
    isDigit c = true := by
  rw [toList_padded, List.mem_append] at h
  rcases h with h | h
  · rw [List.eq_of_mem_replicate h]
    rfl
  · exact isDigit_of_mem_toDigits h

theorem padded_ne_nil (width n : Nat) : (padded width n).toList ≠ [] := by
  rw [toList_padded]
  simp

@[simp] theorem digits?_padded (width n : Nat) : digits? (padded width n).toList = some n := by
  rw [digits?_eq (padded_ne_nil width n) fun _ => isDigit_of_mem_padded, toList_padded,
    Nat.ofDigitChars_append, Nat.ofDigitChars_replicate_zero, Nat.mul_zero]
  exact congrArg some Nat.ofDigitChars_ten_toDigits

theorem length_padded {width n : Nat} (hpos : 0 < width) (h : n < 10 ^ width) :
    (padded width n).toList.length = width := by
  have hle := (Nat.length_toDigits_le_iff (by omega) hpos).2 h
  rw [toList_padded, List.length_append, List.length_replicate]
  omega

@[simp] theorem toList_decimal (n : Nat) : (decimal n).toList = Nat.toDigits 10 n := by
  simp [decimal]

theorem toDigits_ne_cons {n : Nat} {c : Char} (hc : isDigit c = false) (rest : List Char) :
    Nat.toDigits 10 n ≠ c :: rest := by
  intro h
  have hdigit := isDigit_of_mem_toDigits (h ▸ List.mem_cons_self : c ∈ Nat.toDigits 10 n)
  rw [hc] at hdigit
  cases hdigit

theorem unsigned?_toDigits {top n : Nat} (h : n ≤ top) :
    unsigned? top (Nat.toDigits 10 n) = some n := by
  unfold unsigned?
  split
  next rest heq => exact absurd heq (toDigits_ne_cons rfl rest)
  next => simp [h]

theorem toList_decimalInt_ofNat (n : Nat) : (decimalInt (n : Int)).toList = Nat.toDigits 10 n :=
  toList_decimal n

theorem toList_decimalInt_negSucc (n : Nat) :
    (decimalInt (.negSucc n)).toList = '-' :: Nat.toDigits 10 (n + 1) := by
  simp [decimalInt]

theorem signed?_decimalInt {bottom top i : Int} (hb : bottom ≤ i) (ht : i ≤ top) :
    signed? bottom top (decimalInt i).toList = some i := by
  cases i with
  | ofNat n =>
    change signed? bottom top (decimalInt (n : Int)).toList = some (n : Int)
    rw [toList_decimalInt_ofNat]
    unfold signed?
    split
    next rest heq => exact absurd heq (toDigits_ne_cons rfl rest)
    next rest heq => exact absurd heq (toDigits_ne_cons rfl rest)
    next => simpa using ⟨hb, ht⟩
  | negSucc n =>
    rw [toList_decimalInt_negSucc]
    simp only [signed?, digits?_toDigits]
    exact Option.filter_some_pos (decide_eq_true (And.intro hb ht))

theorem isBlank_of_mem_decimalInt {i : Int} {c : Char} (h : c ∈ (decimalInt i).toList) :
    isBlank c = false := by
  cases i with
  | ofNat n =>
    rw [Int.ofNat_eq_natCast, toList_decimalInt_ofNat] at h
    exact isBlank_of_isDigit (isDigit_of_mem_toDigits h)
  | negSucc n =>
    rw [toList_decimalInt_negSucc] at h
    rcases List.mem_cons.1 h with rfl | h
    · rfl
    · exact isBlank_of_isDigit (isDigit_of_mem_toDigits h)

end Cwmp.Text
