import Cwmp.Files.FileTree
import Mathlib.Tactic

/-! # Files put into a tree

A file that was put into a folder stands there, and nothing else has changed. For the folders on the
way to the file are folders still, and what they held they hold still, so that the parts of a path
lead where they led before.
-/
namespace Cwmp.FileTree

variable {t t' : FileTree} {entries : List (String × FileTree)} {name part : String}
  {position : List String}

theorem lookup_setEntry (entries : List (String × FileTree)) (name part : String)
    (new : FileTree) : (setEntry entries name new).lookup part =
      if part = name then some new else entries.lookup part := by
  have hreplace : ∀ entries : List (String × FileTree),
      (entries.map fun e => if e.1 = name then (name, new) else e).lookup part =
        if part = name then (entries.lookup part).map fun _ => new else entries.lookup part := by
    intro entries
    induction entries with
    | nil => simp
    | cons e rest ih =>
      obtain ⟨other, old⟩ := e
      rw [List.map_cons]
      by_cases hother : other = name
      · subst hother
        by_cases hpart : part = other
        · simp [hpart]
        · simp [hpart, List.lookup_cons, ih, beq_eq_false_iff_ne.2 hpart]
      · by_cases hpart : part = other
        · simp [hpart, hother]
        · simp [hother, List.lookup_cons, ih, beq_eq_false_iff_ne.2 hpart]
  have hsome : entries.any (fun e => e.1 == name) = (entries.lookup name).isSome := by
    induction entries with
    | nil => rfl
    | cons e rest ih =>
      obtain ⟨other, old⟩ := e
      by_cases hother : other = name
      · simp [hother]
      · have hne : (name == other) = false := beq_eq_false_iff_ne.2 (Ne.symm hother)
        simp [hother, List.lookup_cons, hne, ih]
  unfold setEntry
  split_ifs with hany hpart hpart
  · rw [hreplace, if_pos hpart, hpart]
    rw [hsome, Option.isSome_iff_exists] at hany
    obtain ⟨old, hold⟩ := hany
    simp [hold]
  · rw [hreplace, if_neg hpart]
  · rw [hsome, Option.isSome_iff_ne_none, not_not] at hany
    simp [List.lookup_append, hpart, hany]
  · simp [List.lookup_append, List.lookup_cons, beq_eq_false_iff_ne.2 hpart]

theorem node?_cons (entries : List (String × FileTree)) (name : String) (names : List String) :
    (folder entries).node? (name :: names) =
      (entries.lookup name).bind fun inner => inner.node? names :=
  rfl

theorem put_cons (entries : List (String × FileTree)) (new : FileTree) (name : String)
    (names : List String) : (folder entries).put new (name :: names) =
      folder (setEntry entries name (((entries.lookup name).getD empty).put new names)) :=
  rfl

theorem exists_entry_of_node? (h : t.node? (name :: position) = some t') :
    ∃ entries inner, t = folder entries ∧ entries.lookup name = some inner ∧
      inner.node? position = some t' := by
  cases t with
  | file text => cases h
  | folder entries =>
    rw [node?_cons, Option.bind_eq_some_iff] at h
    obtain ⟨inner, hlookup, hinner⟩ := h
    exact ⟨entries, inner, rfl, hlookup, hinner⟩

theorem node?_put_self {new : FileTree} :
    ∀ {t : FileTree} {position : List String}, t.node? position = some (folder entries) →
      (t.put new (position ++ [name])).node? (position ++ [name]) = some new
  | t, [], h => by
    cases h
    rw [List.nil_append, put_cons, node?_cons, lookup_setEntry, if_pos rfl]
    rfl
  | t, part :: position, h => by
    obtain ⟨others, inner, rfl, hlookup, hinner⟩ := exists_entry_of_node? h
    rw [List.cons_append, put_cons, node?_cons, lookup_setEntry, if_pos rfl, hlookup]
    exact node?_put_self hinner

theorem node?_snoc (h : t.node? position = some (folder entries)) :
    t.node? (position ++ [name]) = entries.lookup name := by
  induction position generalizing t with
  | nil =>
    cases h
    rw [List.nil_append, node?_cons]
    cases entries.lookup name <;> rfl
  | cons part position ih =>
    obtain ⟨others, inner, rfl, hlookup, hinner⟩ := exists_entry_of_node? h
    rw [List.cons_append, node?_cons, hlookup]
    exact ih hinner

def text? : FileTree → Option String
  | file text => some text
  | folder _ => none

/-- What is to be seen at a position: nothing, a folder or a file with its text. -/
def sight? (t : FileTree) (position : List String) : Option (Option String) :=
  (t.node? position).map text?

theorem sight?_cons (entries : List (String × FileTree)) (name : String) (names : List String) :
    (folder entries).sight? (name :: names) =
      (entries.lookup name).bind fun inner => inner.sight? names := by
  rw [sight?, node?_cons, Option.map_bind]
  rfl

/-- A file that is put into a folder, unless in the place of a folder, changes nothing else. -/
theorem sight?_put {text : String} {other : List String}
    (h : t.node? position = some (folder entries))
    (hname : ∀ inner, entries.lookup name ≠ some (folder inner))
    (hother : other ≠ position ++ [name]) :
    (t.put (file text) (position ++ [name])).sight? other = t.sight? other := by
  induction position generalizing t other with
  | nil =>
    cases h
    cases other with
    | nil => rfl
    | cons part other =>
      rw [List.nil_append, put_cons, sight?_cons, sight?_cons, lookup_setEntry]
      by_cases hpart : part = name
      · subst hpart
        obtain ⟨step, deeper, rfl⟩ : ∃ step deeper, other = step :: deeper :=
          List.exists_cons_of_ne_nil fun hnil => hother (by rw [hnil, List.nil_append])
        rw [if_pos rfl]
        cases hold : entries.lookup part with
        | none => rfl
        | some old =>
          cases old with
          | file => rfl
          | folder inner => exact absurd hold (hname inner)
      · rw [if_neg hpart]
  | cons part position ih =>
    obtain ⟨others, inner, rfl, hlookup, hinner⟩ := exists_entry_of_node? h
    cases other with
    | nil => rfl
    | cons step other =>
      rw [List.cons_append, put_cons, sight?_cons, sight?_cons, lookup_setEntry, hlookup]
      by_cases hstep : step = part
      · subst hstep
        rw [if_pos rfl, hlookup]
        apply ih hinner
        rintro rfl
        exact hother rfl
      · rw [if_neg hstep]

/-- A position holds a folder with at least the entries of another one. -/
def Covers (t : FileTree) (position : List String) (entries : List (String × FileTree)) : Prop :=
  ∃ more, t.node? position = some (folder more) ∧
    ∀ part, (entries.lookup part).isSome → (more.lookup part).isSome

/-- All folders stay when a file is put into one of them, unless in the place of a folder. -/
theorem covers_put {text : String} {other : List String} {others : List (String × FileTree)}
    (h : t.node? position = some (folder entries))
    (hname : ∀ inner, entries.lookup name ≠ some (folder inner))
    (hother : t.node? other = some (folder others)) :
    (t.put (file text) (position ++ [name])).Covers other others := by
  have hne : other ≠ position ++ [name] := by
    rintro rfl
    rw [node?_snoc h] at hother
    exact hname others hother
  have hsight : (t.put (file text) (position ++ [name])).sight? other = some none := by
    rw [sight?_put h hname hne, sight?, hother]
    rfl
  obtain ⟨node, hnode, htext⟩ := Option.map_eq_some_iff.1 hsight
  cases node with
  | file => cases htext
  | folder more =>
    refine ⟨more, hnode, fun part hpart => ?_⟩
    rw [← node?_snoc hother] at hpart
    rw [← node?_snoc hnode]
    by_cases hplace : other ++ [part] = position ++ [name]
    · rw [hplace, node?_put_self h]
      rfl
    · have hsight : (t.put (file text) (position ++ [name])).sight? (other ++ [part]) =
          t.sight? (other ++ [part]) := sight?_put h hname hplace
      rw [← Option.isSome_map, ← sight?] at hpart ⊢
      rwa [hsight]

theorem follow_append {parts more : List String} {position' : List String}
    (h : t.follow position parts = .ok position') :
    t.follow position (parts ++ more) = t.follow position' more := by
  induction parts generalizing position with
  | nil =>
    cases h
    rfl
  | cons part parts ih =>
    rw [List.cons_append]
    simp only [follow] at h ⊢
    split at h
    next =>
      split_ifs at h ⊢ with hstay hup hlong hsome
      · exact ih h
      · exact ih h
      · exact ih h
    next => cases h
    next => cases h

/-- A path is followed as before where all folders are still there. -/
theorem follow_of_covers {parts : List String} {position' : List String}
    (hcovers : ∀ other others, t.node? other = some (folder others) → t'.Covers other others)
    (h : t.follow position parts = .ok position') : t'.follow position parts = .ok position' := by
  induction parts generalizing position with
  | nil => exact h
  | cons part parts ih =>
    simp only [follow] at h ⊢
    split at h
    next others hothers =>
      obtain ⟨more, hmore, hentries⟩ := hcovers _ _ hothers
      rw [hmore]
      dsimp only
      split_ifs at h with hstay hup hlong hsome
      · rw [if_pos hstay]
        exact ih h
      · rw [if_neg hstay, if_pos hup]
        exact ih h
      · rw [if_neg hstay, if_neg hup, if_neg hlong, if_pos (hentries part hsome)]
        exact ih h
    next => cases h
    next => cases h

end Cwmp.FileTree
