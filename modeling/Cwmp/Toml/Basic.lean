/-! # Settings trees

The values of a settings file. Tables remember how they came to be, because a file may not come back
to a table in every way.
-/
namespace Cwmp.Toml

/-- How a table came to be. -/
inductive Making
  /-- On the way to a table with a header of its own. -/
  | implied
  | header
  /-- By keys with dots. -/
  | dotted
  /-- In braces, complete at once. -/
  | closed
deriving DecidableEq, Repr

inductive Setting
  | text (s : String)
  | integer (i : Int)
  | real
  | boolean (b : Bool)
  /-- A date, a time or both. -/
  | moment
  | list (items : List Setting)
  | table (making : Making) (members : List (String × Setting))
  /-- A list of tables with headers, the last one first. -/
  | tables (items : List Setting)
deriving Inhabited

/-- Named values, each name once. -/
abbrev Members := List (String × Setting)

namespace Members

def get? (m : Members) (name : String) : Option Setting :=
  m.lookup name

/-- A value in the place of one of the same name, or else at the end. -/
def set (m : Members) (name : String) (v : Setting) : Members :=
  if m.any fun p => p.1 == name then m.map fun p => if p.1 = name then (name, v) else p
  else m ++ [(name, v)]

def add? (m : Members) (name : String) (v : Setting) : Option Members :=
  if (m.get? name).isSome then none else some (m ++ [(name, v)])

/-- Changes the table that a path of names leads to, making the tables that are missing. Of a list
of tables the last one is meant. Keys with dots do not lead into tables with headers. -/
def edit (making : Making) (m : Members) (path : List String) (f : Members → Option Members) :
    Option Members :=
  match path with
  | [] => f m
  | name :: path =>
    match m.get? name with
    | none => (edit making [] path f).map fun inner => m ++ [(name, .table making inner)]
    | some (.table old inner) =>
      if old = .closed ∨ (making = .dotted ∧ old = .header) then none
      else (edit making inner path f).map fun inner => m.set name (.table old inner)
    | some (.tables (.table old inner :: before)) =>
      if making = .dotted then none
      else (edit making inner path f).map fun inner =>
        m.set name (.tables (.table old inner :: before))
    | some _ => none

def openTable (m : Members) (name : String) : Option Members :=
  match m.get? name with
  | none => some (m ++ [(name, .table .header [])])
  | some (.table .implied inner) => some (m.set name (.table .header inner))
  | some _ => none

def openNext (m : Members) (name : String) : Option Members :=
  match m.get? name with
  | none => some (m ++ [(name, .tables [.table .header []])])
  | some (.tables items) => some (m.set name (.tables (.table .header [] :: items)))
  | some _ => none

end Members

/-- The value of a name that may have dots in it. -/
def Members.assign (m : Members) (path : List String) (v : Setting) : Option Members :=
  match path.getLast? with
  | none => none
  | some name => m.edit .dotted path.dropLast fun inner => inner.add? name v

end Cwmp.Toml
