import Cwmp.Entity.Basic
import Cwmp.ModelError
import Cwmp.Options
import Cwmp.Table.AliasIndex
import Cwmp.Table.Rows

/-! # Tables

The rows of an object that may be created and deleted. Every row has an instance number, which the
table gives out in ascending order, and a row type with aliases has its rows indexed by alias. A
table that was loaded may hold an alias more than once; the index then names one of its holders.
-/
namespace Cwmp

structure Table (E : Type) where
  rows : Rows E
  aliases : AliasIndex
  /-- The number that the next row gets. -/
  next : InstanceNumber
  options : Options

namespace Table

variable {E : Type}

def empty (options : Options := {}) : Table E where
  rows := .empty
  aliases := {}
  next := .first
  options := options

instance : Inhabited (Table E) := ⟨empty⟩

/-- Tables are alike when their rows are. -/
instance [BEq E] : BEq (Table E) :=
  ⟨fun a b => a.rows.alike b.rows⟩

/-- Other options. Rows beyond a new limit stay. -/
def setOptions (t : Table E) (options : Options) : Table E :=
  { t with options := options }

def get? (t : Table E) (i : InstanceNumber) : Option E :=
  t.rows.get? i

variable [Entity E]

/-- The row for which an alias stands. -/
def resolve (t : Table E) (s : String) : Except ModelError InstanceNumber :=
  match t.aliases.get? s with
  | some i => .ok i
  | none => .error (.aliasNotFound (Entity.pathText E) s)

/-- The row for which an alias stands, with its number. -/
def byAlias? (t : Table E) (s : String) : Option (InstanceNumber × E) :=
  (t.aliases.get? s).bind fun i => (t.get? i).map fun row => (i, row)

/-- The row with a number, or an error that says there is none. -/
def row (t : Table E) (i : InstanceNumber) : Except ModelError E :=
  match t.get? i with
  | some row => .ok row
  | none => .error (.instanceNotFound (Entity.pathText E) i)

/-- The index of a list of rows: of several holders of an alias the last one is named. -/
def indexOf (entries : List (InstanceNumber × E)) : AliasIndex :=
  entries.foldl (fun x (i, row) =>
    match Entity.alias? row with
    | some s => x.insert s i
    | none => x) {}

/-- The number after the largest one in use. -/
def nextAfter (instances : List InstanceNumber) : InstanceNumber :=
  match instances with
  | [] => .first
  | i :: rest => (rest.foldl InstanceNumber.max i).next

def ofRows (rows : Rows E) (options : Options := {}) : Table E where
  rows := rows
  aliases := indexOf rows.entries
  next := nextAfter rows.instances
  options := options

/-- Paths and texts of all parameters of all rows, `path` being that of the table. -/
def parameters (t : Table E) (path : String) : List (String × String) :=
  t.rows.entries.flatMap fun (i, row) =>
    (Entity.texts row).map fun (name, text) => (path ++ i.text ++ "." ++ name, text)

/-- Paths of all parameters of all rows. -/
def names (t : Table E) (path : String) : List String :=
  (t.parameters path).map Prod.fst

end Table
end Cwmp
