import Cwmp.Json.Read
import Cwmp.Json.Write
import Cwmp.Proofs.Text.Decimal
import Mathlib.Tactic

/-! # The tokens of what was written

Blanks between tokens do not count. A text is one token whatever stands in it, and so is a number
if no character follows it that could belong to a number.
-/
namespace Cwmp.Json

open Text

@[simp] theorem tokens_nil : tokens [] = [] := by
  rw [tokens]

@[simp] theorem tokens_break (rest : List Char) : tokens ('\n' :: rest) = tokens rest := by
  rw [tokens]
  simp

@[simp] theorem tokens_blank (rest : List Char) : tokens (' ' :: rest) = tokens rest := by
  rw [tokens]
  simp

@[simp] theorem tokens_openList (rest : List Char) :
    tokens ('[' :: rest) = .openList :: tokens rest := by
  rw [tokens]
  simp

@[simp] theorem tokens_closeList (rest : List Char) :
    tokens (']' :: rest) = .closeList :: tokens rest := by
  rw [tokens]
  simp

@[simp] theorem tokens_openTable (rest : List Char) :
    tokens ('\x7b' :: rest) = .openTable :: tokens rest := by
  rw [tokens]
  simp

@[simp] theorem tokens_closeTable (rest : List Char) :
    tokens ('\x7d' :: rest) = .closeTable :: tokens rest := by
  rw [tokens]
  simp

@[simp] theorem tokens_colon (rest : List Char) :
    tokens (':' :: rest) = .colon :: tokens rest := by
  rw [tokens]
  simp

@[simp] theorem tokens_comma (rest : List Char) :
    tokens (',' :: rest) = .comma :: tokens rest := by
  rw [tokens]
  simp

@[simp] theorem tokens_lineStart (level : Nat) (rest : List Char) :
    tokens ((lineStart level).toList ++ rest) = tokens rest := by
  have hblanks : ∀ n, tokens (List.replicate n ' ' ++ rest) = tokens rest := by
    intro n
    induction n with
    | zero => rfl
    | succ n ih => rw [List.replicate_succ, List.cons_append, tokens_blank, ih]
  simp [lineStart, hblanks]

theorem hexPadded_control : ∀ n < 0x20, hexPadded 4 n = ['0', '0', hexDigit (n / 16),
    hexDigit (n % 16)] ∧ hexFrom 0 (hexPadded 4 n) = some n := by
  decide

/-- A character is written as one piece that stands for it. -/
theorem exists_piece (c : Char) : ∃ piece, (∀ {rest after : List Char} {pieces : List Piece},
    pieces? rest = some (pieces, after) →
      pieces? ((charText c).toList ++ rest) = some (piece :: pieces, after)) ∧
    ∀ pieces, joinPieces (piece :: pieces) = (joinPieces pieces).map (c :: ·) := by
  unfold charText
  split_ifs with hquote hback hfeed hreturn htab h8 h12 hcontrol
  · subst hquote
    exact ⟨.char '"', fun h => by simp [pieces?, escaped?, h], fun _ => rfl⟩
  · subst hback
    exact ⟨.char '\\', fun h => by simp [pieces?, escaped?, h], fun _ => rfl⟩
  · subst hfeed
    exact ⟨.char '\n', fun h => by simp [pieces?, escaped?, h], fun _ => rfl⟩
  · subst hreturn
    exact ⟨.char '\r', fun h => by simp [pieces?, escaped?, h], fun _ => rfl⟩
  · subst htab
    exact ⟨.char '\t', fun h => by simp [pieces?, escaped?, h], fun _ => rfl⟩
  · obtain rfl : c = Char.ofNat 8 := by rw [← h8, Char.ofNat_toNat]
    exact ⟨.char (Char.ofNat 8), fun h => by simp [pieces?, escaped?, h], fun _ => rfl⟩
  · obtain rfl : c = Char.ofNat 12 := by rw [← h12, Char.ofNat_toNat]
    exact ⟨.char (Char.ofNat 12), fun h => by simp [pieces?, escaped?, h], fun _ => rfl⟩
  · obtain ⟨hdigits, hread⟩ := hexPadded_control c.toNat hcontrol
    refine ⟨.unit c.toNat, fun h => ?_, fun pieces => ?_⟩
    · rw [hdigits] at hread
      simp [hdigits, pieces?, hread, h]
    · have hunit : c.toNat < 0xD800 ∨ 0xE000 ≤ c.toNat := .inl (by omega)
      rw [joinPieces.eq_def]
      dsimp only
      rw [if_pos hunit, Char.ofNat_toNat]
  · refine ⟨.char c, fun {rest after pieces} h => ?_, fun _ => rfl⟩
    rw [Char.toString_eq_singleton, String.toList_singleton, List.singleton_append, pieces?.eq_def]
    split
    next heq => cases heq
    next heq => exact absurd (List.cons.inj heq).1 hquote
    next heq => exact absurd (List.cons.inj heq).1 hback
    next heq => exact absurd (List.cons.inj heq).1 hback
    next d others _ _ _ heq =>
      cases heq
      rw [if_neg (not_or.2 ⟨hcontrol, hback⟩), h]

theorem pieces?_quoted (s rest : List Char) :
    ∃ pieces, pieces? (s.flatMap (fun c => (charText c).toList) ++ '"' :: rest) =
      some (pieces, rest) ∧ joinPieces pieces = some s := by
  induction s with
  | nil => exact ⟨[], rfl, rfl⟩
  | cons c s ih =>
    obtain ⟨pieces, hpieces, hjoin⟩ := ih
    obtain ⟨piece, hread, hchar⟩ := exists_piece c
    refine ⟨piece :: pieces, ?_, ?_⟩
    · rw [List.flatMap_cons, List.append_assoc, hread hpieces]
    · rw [hchar, hjoin]
      rfl

@[simp] theorem tokens_quote (s : String) (rest : List Char) :
    tokens ((quote s).toList ++ rest) = .text (some s) :: tokens rest := by
  obtain ⟨pieces, hpieces, hjoin⟩ := pieces?_quoted s.toList rest
  have htext : (quote s).toList ++ rest =
      '"' :: (s.toList.flatMap (fun c => (charText c).toList) ++ '"' :: rest) := by
    simp [quote, String.toList_join, List.flatMap_map]
  rw [htext, tokens]
  simp only [Char.reduceEq, or_self, if_false, if_true]
  split
  next found after heq =>
    rw [hpieces] at heq
    cases heq
    rw [hjoin, Option.map_some, String.ofList_toList]
  next heq =>
    rw [hpieces] at heq
    cases heq

@[simp] theorem tokens_true (rest : List Char) :
    tokens ('t' :: 'r' :: 'u' :: 'e' :: rest) = .scalar (.boolean true) :: tokens rest := by
  rw [tokens]
  simp [isDigit, digit?]

@[simp] theorem tokens_false (rest : List Char) :
    tokens ('f' :: 'a' :: 'l' :: 's' :: 'e' :: rest) = .scalar (.boolean false) :: tokens rest := by
  rw [tokens]
  simp [isDigit, digit?]

@[simp] theorem tokens_null (rest : List Char) :
    tokens ('n' :: 'u' :: 'l' :: 'l' :: rest) = .scalar .null :: tokens rest := by
  rw [tokens]
  simp [isDigit, digit?]

theorem span_append {p : Char → Bool} {s rest : List Char} (hs : ∀ c ∈ s, p c = true)
    (hrest : ∀ c, rest.head? = some c → p c = false) :
    (s ++ rest).takeWhile p = s ∧ (s ++ rest).dropWhile p = rest := by
  rw [List.takeWhile_append_of_pos hs, List.dropWhile_append_of_pos hs]
  cases rest with
  | nil => exact ⟨List.append_nil s, rfl⟩
  | cons c rest =>
    have hc := hrest c rfl
    exact ⟨by simp [hc], by simp [hc]⟩

/-- No character of a number is to come. -/
def Ends (rest : List Char) : Prop :=
  ∀ c, rest.head? = some c → isNumeral c = false

theorem tokens_number {c : Char} {s rest : List Char} {d : Doc}
    (hc : (isDigit c || c == '-') = true) (hs : ∀ d ∈ s, isDigit d = true)
    (hnumber : number? (c :: s) = some d) (hrest : Ends rest) :
    tokens (c :: s ++ rest) = .scalar d :: tokens rest := by
  have hne : ∀ mark, (isDigit mark || mark == '-') = false → c ≠ mark := by
    rintro mark hmark rfl
    rw [hc] at hmark
    cases hmark
  have hnumerals : ∀ d ∈ s, isNumeral d = true := fun d hd => by simp [isNumeral, hs d hd]
  obtain ⟨htake, hdrop⟩ := span_append hnumerals hrest
  rw [List.cons_append, tokens]
  simp only [hne ' ' rfl, hne '\n' rfl, hne '\t' rfl, hne '\r' rfl, hne '[' rfl, hne ']' rfl,
    hne '\x7b' rfl, hne '\x7d' rfl, hne ':' rfl, hne ',' rfl, hne '"' rfl, or_self, if_false, hc,
    if_true, htake, hdrop, hnumber]

theorem eq_zero_of_head?_toDigits {n : Nat} (h : (Nat.toDigits 10 n).head? = some '0') :
    n = 0 := by
  induction n using Nat.strong_induction_on with
  | _ n ih =>
    by_cases hn : n < 10
    · rw [Nat.toDigits_of_lt_base hn] at h
      interval_cases n <;> simp_all
    · rw [Nat.toDigits_of_base_le (by omega) (by omega), List.head?_append] at h
      cases hhead : (Nat.toDigits 10 (n / 10)).head? with
      | none => exact absurd (List.head?_eq_none_iff.1 hhead) Nat.toDigits_ne_nil
      | some c =>
        rw [hhead] at h
        have hzero := ih (n / 10) (by omega) (hhead.trans h)
        omega

theorem head?_toDigits_ne_minus (n : Nat) : (Nat.toDigits 10 n).head? ≠ some '-' := by
  intro h
  obtain ⟨rest, hrest⟩ := List.head?_eq_some_iff.1 h
  exact toDigits_ne_cons rfl rest hrest

theorem number?_decimalInt {i : Int} (hmin : int64Min ≤ i) (hmax : i ≤ uint64Max) :
    number? (decimalInt i).toList = some (.integer i) := by
  have hspan : ∀ n, (Nat.toDigits 10 n).takeWhile isDigit = Nat.toDigits 10 n ∧
      (Nat.toDigits 10 n).dropWhile isDigit = [] := by
    intro n
    have hdigits : ∀ c ∈ Nat.toDigits 10 n, isDigit c = true := fun _ => isDigit_of_mem_toDigits
    have hnone : ∀ c, ([] : List Char).head? = some c → isDigit c = false := by rintro c ⟨⟩
    simpa using span_append hdigits hnone
  have hzeros : ∀ n, ¬((Nat.toDigits 10 n).head? = some '0' ∧ Nat.toDigits 10 n ≠ ['0']) := by
    rintro n ⟨hhead, hne⟩
    rw [eq_zero_of_head?_toDigits hhead] at hne
    exact hne rfl
  cases i with
  | ofNat n =>
    have hn : n ≤ uint64Max := Int.ofNat_le.1 hmax
    rw [Int.ofNat_eq_natCast, toList_decimalInt_ofNat, number?]
    simp [head?_toDigits_ne_minus, hspan, hzeros, isTail, hn]
  | negSucc n =>
    have hn : ¬((n + 1 : Nat) : Int) > -int64Min := by omega
    rw [toList_decimalInt_negSucc, number?]
    simp only [List.head?_cons, if_true, List.drop_succ_cons, List.drop_zero, hspan,
      digits?_toDigits, hzeros, isTail, false_or, hn]
    simp [Int.negSucc_eq]

theorem tokens_decimalInt {i : Int} {rest : List Char} (hmin : int64Min ≤ i) (hmax : i ≤ uint64Max)
    (hrest : Ends rest) :
    tokens ((decimalInt i).toList ++ rest) = .scalar (.integer i) :: tokens rest := by
  have hnumber := number?_decimalInt hmin hmax
  cases i with
  | ofNat n =>
    rw [Int.ofNat_eq_natCast, toList_decimalInt_ofNat] at hnumber ⊢
    have hdigits : ∀ c ∈ Nat.toDigits 10 n, isDigit c = true := fun _ => isDigit_of_mem_toDigits
    cases hd : Nat.toDigits 10 n with
    | nil => exact absurd hd Nat.toDigits_ne_nil
    | cons c s =>
      rw [hd] at hnumber hdigits
      obtain ⟨hc, hs⟩ := List.forall_mem_cons.1 hdigits
      exact tokens_number (by rw [hc, Bool.true_or]) hs hnumber hrest
  | negSucc n =>
    rw [toList_decimalInt_negSucc] at hnumber ⊢
    exact tokens_number rfl (fun _ => isDigit_of_mem_toDigits) hnumber hrest

end Cwmp.Json
