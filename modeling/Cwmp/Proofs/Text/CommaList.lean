import Cwmp.Text.CommaList
import Mathlib.Data.List.DropRight
import Mathlib.Tactic

/-! # Comma-separated lists read back

Joining pieces and cutting at the separator are inverse to each other as long as no piece holds the
separator. A list is read back from its text exactly when its items are such as reading gives them.
-/
namespace Cwmp.Text

@[simp] theorem trim_trim (s : List Char) : trim (trim s) = trim s := by
  have hfront : dropBlanks (trim s) = trim s := by
    rw [dropBlanks, List.dropWhile_eq_self_iff]
    intro hpos
    have hstart : trim s <+: dropBlanks s := List.rdropWhile_prefix isBlank (dropBlanks s)
    rw [hstart.getElem hpos]
    exact List.dropWhile_eq_self_iff.1 (List.dropWhile_idempotent isBlank s) _
  have hback : dropTrailingBlanks (trim s) = trim s :=
    List.rdropWhile_idempotent isBlank (dropBlanks s)
  rw [trim, hfront, hback]

theorem mem_of_mem_trim {s : List Char} {c : Char} (h : c ∈ trim s) : c ∈ s :=
  (List.dropWhile_sublist isBlank).subset ((List.rdropWhile_prefix isBlank (dropBlanks s)).subset h)

theorem trim_eq_self_of_ends {s : List Char} (hstart : ∀ c, s.head? = some c → isBlank c = false)
    (hstop : ∀ c, s.getLast? = some c → isBlank c = false) : trim s = s := by
  have hdrop : ∀ t : List Char, (∀ c, t.head? = some c → isBlank c = false) →
      dropBlanks t = t := by
    intro t ht
    cases t with
    | nil => rfl
    | cons c rest => exact List.dropWhile_cons_of_neg (by simp [ht c rfl])
  unfold trim dropTrailingBlanks
  rw [hdrop s hstart, hdrop s.reverse (by simpa using hstop), List.reverse_reverse]

/-- A text stays as it is when trimmed if and only if neither end of it is a blank. -/
theorem trim_eq_self_iff {s : List Char} : trim s = s ↔
    (∀ c, s.head? = some c → isBlank c = false) ∧
      ∀ c, s.getLast? = some c → isBlank c = false := by
  refine ⟨fun h => ?_, fun h => trim_eq_self_of_ends h.1 h.2⟩
  have hfront : ∀ (t : List Char) (c : Char), (dropBlanks t).head? = some c →
      isBlank c = false := by
    intro t c hc
    have hnot := List.head?_dropWhile_not isBlank t
    rw [dropBlanks] at hc
    rw [hc] at hnot
    exact hnot
  have hprefix : trim s <+: dropBlanks s := List.rdropWhile_prefix isBlank (dropBlanks s)
  have hlength : s.length ≤ (dropBlanks s).length := by
    rw [← congrArg List.length h]
    exact hprefix.length_le
  have hdrop : dropBlanks s = s := (List.dropWhile_suffix isBlank).eq_of_length_le hlength
  constructor
  · intro c hc
    exact hfront s c (hdrop.symm ▸ hc)
  · intro c hc
    refine hfront s.reverse c ?_
    have hback : dropTrailingBlanks s = s := by
      rw [← congrArg dropTrailingBlanks hdrop]
      exact h
    rw [← hback, dropTrailingBlanks, List.getLast?_reverse] at hc
    exact hc

theorem trim_eq_self {s : List Char} (h : ∀ c ∈ s, isBlank c = false) : trim s = s := by
  apply trim_eq_self_of_ends
  · exact fun c hc => h c (List.mem_of_head? hc)
  · exact fun c hc => h c (List.mem_of_getLast? hc)

section Cutting

variable {separator : Char} {piece : List Char}

theorem splitAt_of_not_mem (h : separator ∉ piece) : splitAt separator piece = [piece] := by
  induction piece with
  | nil => rfl
  | cons c rest ih =>
    rw [List.mem_cons, not_or] at h
    simp only [splitAt, Ne.symm h.1, ↓reduceIte, ih h.2]

theorem splitAt_append_cons (h : separator ∉ piece) (s : List Char) :
    splitAt separator (piece ++ separator :: s) = piece :: splitAt separator s := by
  induction piece with
  | nil => simp [splitAt]
  | cons c rest ih =>
    rw [List.mem_cons, not_or] at h
    simp only [List.cons_append, splitAt, Ne.symm h.1, ↓reduceIte, ih h.2]

/-- No piece holds the separator. -/
theorem not_mem_of_mem_splitAt {s : List Char} (h : piece ∈ splitAt separator s) :
    separator ∉ piece := by
  induction s generalizing piece with
  | nil =>
    rw [splitAt, List.mem_singleton] at h
    simp [h]
  | cons c rest ih =>
    unfold splitAt at h
    split_ifs at h with hc
    · rcases List.mem_cons.1 h with rfl | h
      · simp
      · exact ih h
    · split at h
      next hnil => exact absurd hnil (splitAt_ne_nil separator rest)
      next first pieces hpieces =>
        rw [hpieces] at ih
        rcases List.mem_cons.1 h with rfl | h
        · rw [List.mem_cons, not_or]
          exact ⟨Ne.symm hc, ih List.mem_cons_self⟩
        · exact ih (List.mem_cons_of_mem first h)

end Cutting

theorem toList_joinWith_cons (separator first second : String) (rest : List String) :
    (joinWith separator (first :: second :: rest)).toList =
      first.toList ++ separator.toList ++ (joinWith separator (second :: rest)).toList := by
  simp [joinWith]

theorem splitAt_joinWith {separator : Char} : ∀ {items : List String}, items ≠ [] →
    (∀ s ∈ items, separator ∉ s.toList) →
      splitAt separator (joinWith (String.singleton separator) items).toList =
        items.map String.toList
  | [], hne, _ => absurd rfl hne
  | [item], _, h => splitAt_of_not_mem (h item List.mem_cons_self)
  | first :: second :: rest, _, h => by
    rw [List.forall_mem_cons] at h
    rw [toList_joinWith_cons, String.toList_singleton, List.append_assoc, List.singleton_append,
      splitAt_append_cons h.1, splitAt_joinWith (List.cons_ne_nil second rest) h.2]
    rfl

/-- An item such as reading a list gives it: not empty, without commas and without blanks at its
ends. -/
structure IsItem (s : String) : Prop where
  ne_empty : s ≠ ""
  no_comma : ',' ∉ s.toList
  trimmed : trim s.toList = s.toList

instance (s : String) : Decidable (IsItem s) :=
  decidable_of_iff (s ≠ "" ∧ ',' ∉ s.toList ∧ trim s.toList = s.toList)
    ⟨fun ⟨hne, hcomma, htrim⟩ => ⟨hne, hcomma, htrim⟩, fun h => ⟨h.1, h.2, h.3⟩⟩

/-- A text that stands by itself in a list: not empty, without commas, its first and its last
character no blanks. -/
structure IsBare (s : String) : Prop where
  ne_empty : s ≠ ""
  no_comma : ',' ∉ s.toList
  first : ∀ c, s.toList.head? = some c → isBlank c = false
  last : ∀ c, s.toList.getLast? = some c → isBlank c = false

theorem isItem_iff_isBare {s : String} : IsItem s ↔ IsBare s := by
  constructor
  · rintro ⟨hne, hcomma, htrim⟩
    obtain ⟨hfirst, hlast⟩ := trim_eq_self_iff.1 htrim
    exact ⟨hne, hcomma, hfirst, hlast⟩
  · rintro ⟨hne, hcomma, hfirst, hlast⟩
    exact ⟨hne, hcomma, trim_eq_self_iff.2 ⟨hfirst, hlast⟩⟩

theorem isItem_of_mem_commaItems {s item : String} (h : item ∈ commaItems s) : IsItem item := by
  obtain ⟨chars, hchars, rfl⟩ := List.mem_map.1 h
  obtain ⟨hmem, hne⟩ := List.mem_filter.1 hchars
  obtain ⟨piece, hpiece, rfl⟩ := List.mem_map.1 hmem
  constructor
  · intro hempty
    have hnil : trim piece = [] := by simpa using congrArg String.toList hempty
    simp [hnil] at hne
  · rw [String.toList_ofList]
    exact fun hcomma => not_mem_of_mem_splitAt hpiece (mem_of_mem_trim hcomma)
  · rw [String.toList_ofList, trim_trim]

theorem commaItems_commaText {items : List String} (h : ∀ s ∈ items, IsItem s) :
    commaItems (commaText items) = items := by
  by_cases hne : items = []
  · subst hne
    rfl
  · have hcut : splitAt ',' (commaText items).toList = items.map String.toList :=
      splitAt_joinWith hne fun s hs => (h s hs).no_comma
    have htrim : (items.map String.toList).map trim = items.map String.toList := by
      rw [List.map_map]
      exact List.map_congr_left fun s hs => (h s hs).trimmed
    have hkeep : (items.map String.toList).filter (· ≠ []) = items.map String.toList := by
      rw [List.filter_eq_self]
      intro chars hchars
      obtain ⟨s, hs, rfl⟩ := List.mem_map.1 hchars
      simpa using (h s hs).ne_empty
    rw [commaItems, hcut, htrim, hkeep, List.map_map]
    exact (List.map_congr_left fun s _ => String.ofList_toList).trans (List.map_id items)

/-- A list comes back from its text if and only if its items are such as reading gives them. -/
theorem commaItems_commaText_iff {items : List String} :
    commaItems (commaText items) = items ↔ ∀ s ∈ items, IsItem s := by
  constructor
  · intro h s hs
    rw [← h] at hs
    exact isItem_of_mem_commaItems hs
  · exact commaItems_commaText

theorem commaItems_commaText_iff_isBare {items : List String} :
    commaItems (commaText items) = items ↔ ∀ s ∈ items, IsBare s :=
  commaItems_commaText_iff.trans (forall₂_congr fun _ _ => isItem_iff_isBare)

end Cwmp.Text
