import Cwmp.Files.Directory
import Cwmp.Proofs.Answers
import Cwmp.Proofs.Files.FileTree

/-! # Files that were written

A file that was written is found under its path and holds the text, and everything else is as it
was, whether the path starts at the root or in the working folder.
-/
namespace Cwmp.Directory

open FileTree

variable {d d' : Directory} {entries : List (String × FileTree)} {name : String}
  {position : List String}

theorem parts_of_lastPart? {path : String} {before : List String}
    (h : lastPart? path = some (before, name)) (hlast : (Path.parts path).getLast? ≠ some "") :
    Path.parts path = before ++ [name] := by
  unfold lastPart? at h
  split at h
  next first rest heq =>
    cases h
    have hsame : (Path.parts path).reverse.dropWhile (· = "") = (Path.parts path).reverse := by
      cases hparts : (Path.parts path).reverse with
      | nil => rfl
      | cons last others =>
        have hne : last ≠ "" := by
          rintro rfl
          rw [List.reverse_eq_cons_iff] at hparts
          exact hlast (by simp [hparts])
        exact List.dropWhile_cons_of_neg (by simpa using hne)
    rw [hsame, List.reverse_eq_cons_iff] at heq
    exact heq
  next => cases h

/-- What a file is written to: a folder that the path leads to, and a name in it. -/
theorem exists_folder_of_write {path text : String} (h : d.write path text = .ok d') :
    ∃ before name position entries, checkPath path = .ok () ∧
      Path.parts path = before ++ [name] ∧ d.root.follow (d.start path) before = .ok position ∧
      d.root.node? position = some (folder entries) ∧ ¬ Path.isStay name = true ∧ name ≠ ".." ∧
      ¬ maxNameLength < name.utf8ByteSize ∧
      (∀ inner, entries.lookup name ≠ some (folder inner)) ∧
      d' = { d with root := d.root.put (file text) (position ++ [name]) } := by
  obtain ⟨⟨⟩, hcheck, h⟩ := bind_eq_ok_iff.1 h
  split at h
  next => cases h
  next before name hlast =>
    obtain ⟨position, hposition, h⟩ := bind_eq_ok_iff.1 h
    split at h
    next entries hentries =>
      split_ifs at h with hname hlong
      obtain ⟨hstay, hup, hend⟩ : ¬ Path.isStay name = true ∧ name ≠ ".." ∧
          (Path.parts path).getLast? ≠ some "" := by simpa [not_or] using hname
      split at h
      next => cases h
      next hfolder =>
        cases h
        exact ⟨before, name, position, entries, hcheck, parts_of_lastPart? hlast hend, hposition,
          hentries, hstay, hup, hlong, hfolder, rfl⟩
    next => cases h
    next => cases h

theorem find_eq_follow {path : String} (h : checkPath path = .ok ()) :
    d.find path = d.root.follow (d.start path) (Path.parts path) := by
  rw [find, h]
  rfl

theorem contains_of_read {path text : String} (h : d.read path = .ok text) :
    d.contains path = true := by
  obtain ⟨position, hfind, -⟩ := bind_eq_ok_iff.1 h
  rw [contains, hfind]

/-- A directory after a file of it was written. -/
structure Overwritten (d d' : Directory) (path text : String) : Prop where
  working_eq : d'.working = d.working
  read_eq : d'.read path = .ok text
  /-- Apart from where the path leads, everything is as it was. -/
  exists_position : ∃ position, d'.find path = .ok position ∧
    ∀ other, other ≠ position → d'.root.sight? other = d.root.sight? other

/-- What was written to a file is read from it, and nothing else was changed. -/
theorem overwritten_of_write {path text : String} (h : d.write path text = .ok d') :
    d.Overwritten d' path text := by
  obtain ⟨before, name, position, entries, hcheck, hparts, hposition, hentries, hstay, hup,
    hlong, hfolder, rfl⟩ := exists_folder_of_write h
  have hput : (d.root.put (file text) (position ++ [name])).node? (position ++ [name]) =
      some (file text) := node?_put_self hentries
  have hcovers : ∀ other others, d.root.node? other = some (folder others) →
      (d.root.put (file text) (position ++ [name])).Covers other others :=
    fun other others hother => covers_put hentries hfolder hother
  have hfollow : (d.root.put (file text) (position ++ [name])).follow (d.start path)
      (before ++ [name]) = .ok (position ++ [name]) := by
    obtain ⟨more, hmore, -⟩ := hcovers _ _ hentries
    have hsome : (more.lookup name).isSome = true := by rw [← node?_snoc hmore, hput]; rfl
    rw [follow_append (follow_of_covers hcovers hposition)]
    simp [follow, hmore, hstay, hup, hlong, hsome]
  have hfind : find { d with root := d.root.put (file text) (position ++ [name]) } path =
      .ok (position ++ [name]) := by
    rw [find_eq_follow hcheck, hparts]
    exact hfollow
  exact ⟨rfl, by simp [read, hfind, hput, bind, Except.bind], _, hfind,
    fun other hother => sight?_put hentries hfolder hother⟩

end Cwmp.Directory
