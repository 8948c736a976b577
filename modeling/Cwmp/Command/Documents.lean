import Cwmp.Command.Context
import Cwmp.Command.Schema
import Cwmp.Json.Read
import Cwmp.Table.Unique
import Cwmp.Yaml.Read

/-! # Work on table documents

Each of these commands loads a table from its document and does one thing with it. A command that
changes the table shows the result, or saves it and says so.
-/
namespace Cwmp

open Text

inductive DocumentForm
  | json
  | yaml
deriving DecidableEq, Repr

namespace DocumentForm

def ofPath (path : String) : DocumentForm :=
  match Path.extension? path with
  | some "yaml" | some "yml" => yaml
  | _ => json

def load {A : Type} [Codec A] (form : DocumentForm) (text : String) : Except LoadFault A :=
  match form with
  | json => Json.load text
  | yaml => Yaml.load text

/-- The text of a document, with a break at its end. -/
def write (form : DocumentForm) (d : Doc) : String :=
  match form with
  | json => Json.pretty d ++ "\n"
  | yaml => Yaml.write d

end DocumentForm

/-- A parameter and its text from a word of the command line. -/
def assignment? (s : String) : Option (String × String) :=
  let name := s.toList.takeWhile (· ≠ '=')
  match name, s.toList.drop name.length with
  | _ :: _, _ :: value => some (String.ofList name, String.ofList value)
  | _, _ => none

/-- The updates that words of the command line ask for. -/
def assignments (values : Assignments) : Except CommandError Updates :=
  values.mapM fun s => match assignment? s with
    | some update => .ok update
    | none => .error (.invalidValue "assignment" ("expected Name=Value, got '" ++ s ++ "'"))

/-- A path with a dot at its end, to stand before row numbers. -/
def pathBefore (path : String) : String :=
  if path = "" ∨ path.toList.getLast? = some '.' then path else path ++ "."

structure Finding where
  row : InstanceNumber
  fault : ParameterFault
deriving DecidableEq

namespace Finding

/-- The problems of a table in the order of its rows' numbers: what is wrong with a row by itself
stands before what is wrong with it beside others. -/
def ofTable {E : Type} [Entity E] (t : Table E) : List Finding :=
  let own := t.rows.entries.flatMap fun (i, row) => (Entity.validate row).map (⟨i, ·⟩)
  let shared := t.violations.flatMap fun (i, faults) => faults.map (⟨i, ·⟩)
  (own ++ shared).mergeSort fun a b => a.row.number ≤ b.row.number

def cells (paints : Bool) (f : Finding) : List String :=
  let code := f.fault.code.text
  [f.row.text, f.fault.parameter, if paints then Paint.red.apply code else code, f.fault.message]

def line (f : Finding) : String :=
  joinWith "\t" [f.fault.parameter, f.fault.code.text, f.fault.message]

def doc (f : Finding) : Doc :=
  .table [(.name "instance", .integer f.row.number), (.name "parameter", .text f.fault.parameter),
    (.name "code", .integer f.fault.code.code), (.name "message", .text f.fault.message)]

def report (paints : Bool) : List Finding → Report :=
  Report.ofItems ["Row", "Parameter", "Fault", "Problem"] (cells paints) line doc

end Finding

namespace DocumentPlace

abbrev State (place : DocumentPlace) : Type :=
  place.kind.collection.State

abbrev Row (place : DocumentPlace) : Type :=
  place.kind.collection.Row

variable (place : DocumentPlace)

/-- An error about the rows of the document. -/
def orFail {A : Type} (result : Except ModelError A) : Except CommandError A :=
  result.mapError (CommandError.ofModel place.kind)

def table (state : place.State) : Table place.Row :=
  place.kind.collection.table state

/-- The table that a text holds. -/
def parse (options : Options) (text : String) : Except CommandError place.State :=
  match (DocumentForm.ofPath place.file).load text with
  | .ok state => .ok (place.kind.collection.setOptions state options)
  | .error _ => .error (.unreadableDocument place.file)

/-- The number of the row that goes by a name. -/
def resolve (state : place.State) (row : RowName) : Except CommandError InstanceNumber :=
  match InstanceNumber.read row with
  | some i => .ok i
  | none => place.orFail ((place.table state).resolve row)

def rowPath (i : InstanceNumber) : String :=
  place.kind.tablePath ++ i.text ++ "."

/-- The parameters of all rows, or of one row. -/
def listing (state : place.State) (only? : Option InstanceNumber) : List (String × String) :=
  let all := (place.table state).parameters place.kind.tablePath
  match only? with
  | some i => all.filter fun (path, _) => (place.rowPath i).toList.isPrefixOf path.toList
  | none => all

/-- The rank at which a new row is to stand: an option prevails over the parameter. -/
def requestedRank (rank? : Option UInt32) (row : place.Row) (updates : Updates) :
    Except CommandError (Option UInt32) :=
  match place.kind.collection.rankName? with
  | none =>
    if rank?.isSome then
      .error (.invalidValue "--order" (place.kind.name ++ " rows are not ranked"))
    else .ok none
  | some name =>
    if rank?.isSome then .ok rank?
    else if updates.any fun u => u.1 == name then
      .ok (match Entity.get? row name with
        | some (.unsigned n) => if n ≤ uint32Max then some (UInt32.ofNat n) else none
        | _ => none)
    else .ok none

/-- The table after a write, the row written, and what has been done. -/
def written (state : place.State) (row : RowName) (values : Assignments) (origin : Origin) :
    Except CommandError (place.State × InstanceNumber × String) := do
  let updates ← assignments values
  let i ← place.resolve state row
  let state ← place.orFail (place.kind.collection.write state i origin updates)
  pure (state, i, "Set " ++ decimal updates.length ++ " parameter(s) on " ++ place.rowPath i)

def extended (state : place.State) (values : Assignments) (rank? : Option UInt32)
    (origin : Origin) : Except CommandError (place.State × InstanceNumber × String) := do
  let updates ← assignments values
  let row ← place.orFail
    ((Entity.write origin updates (Entity.initial : place.Row)).mapError .setParameterValues)
  let rank? ← place.requestedRank rank? row updates
  let (i, state) ← place.orFail (place.kind.collection.add state row rank?)
  pure (state, i, "Added " ++ place.rowPath i)

def reduced (state : place.State) (i : InstanceNumber) : Except CommandError place.State := do
  let (_, state) ← place.orFail (place.kind.collection.remove state i)
  pure state

variable {m : Type → Type} [Monad m] [Surroundings m] (c : Context)

def load : Action m place.State := do
  match ← (Surroundings.read place.file : m (Except FileFault String)) with
  | .ok text => MonadExcept.ofExcept (place.parse c.options text)
  | .error fault => throw (.file fault)

/-- The table that the document holds, or an empty one if there is no document. -/
def loadOrCreate : Action m place.State := do
  if ← (Surroundings.contains place.file : m Bool) then place.load c
  else pure (place.kind.collection.setOptions place.kind.collection.empty c.options)

/-- Shows a changed table, or saves it and says what has been done. -/
def finish (state : place.State) (only? : Option InstanceNumber) (done : String) (save : Bool) :
    Action m Outcome := do
  let doc := Codec.encode state
  if save then
    let text := (DocumentForm.ofPath place.file).write doc
    match ← (Surroundings.write place.file text : m (Except FileFault Unit)) with
    | .ok () => pure { shown := done ++ " (" ++ place.file ++ ")" }
    | .error fault => throw (.file fault)
  else
    let report := { Report.ofParameters (place.listing state only?) with doc := doc }
    pure { shown := report.text c.output }

def showParameters (path? : Option String) : Action m Outcome := do
  let state ← place.load c
  let path := (path?.map pathBefore).getD place.kind.tablePath
  let report := Report.ofParameters ((place.table state).parameters path)
  pure { shown := report.text c.output }

/-- Shows the problems of the document, and complains if there are some. -/
def validate : Action m Outcome := do
  let state ← place.load c
  let table := place.table state
  let findings := Finding.ofTable table
  if findings = [] ∧ c.output = .table then
    pure { shown := place.file ++ ": " ++ decimal table.rows.entries.length ++ " row(s) valid" }
  else pure {
    shown := (Finding.report c.paints findings).text c.output
    complaint? := if findings = [] then none else some (.invalidDocument findings.length) }

def set (row : RowName) (values : Assignments) (origin : Origin) (save : Bool) :
    Action m Outcome := do
  let state ← place.load c
  let (state, i, done) ← MonadExcept.ofExcept (place.written state row values origin)
  place.finish c state (some i) done save

def add (values : Assignments) (rank? : Option UInt32) (origin : Origin) (save : Bool) :
    Action m Outcome := do
  if origin = .controller ∧ place.kind.isDeviceMade then throw (.deviceOwned place.kind)
  let state ← place.loadOrCreate c
  let (state, i, done) ← MonadExcept.ofExcept (place.extended state values rank? origin)
  place.finish c state (some i) done save

/-- Whether a row may be lost. Nothing is lost as long as nothing is saved; without an answer the
command fails. -/
def mayDelete (i : InstanceNumber) (save : Bool) : Action m Bool := do
  if c.yes ∨ ¬save then pure true
  else
    let question := "Delete " ++ place.rowPath i ++ " from " ++ place.file ++ "?"
    match ← (Surroundings.confirm? question : m (Option Bool)) with
    | some answer => pure answer
    | none => throw (.unconfirmed question)

def delete (row : RowName) (save : Bool) : Action m Outcome := do
  let state ← place.load c
  let i ← MonadExcept.ofExcept (place.resolve state row)
  if ← place.mayDelete c i save then
    let state ← MonadExcept.ofExcept (place.reduced state i)
    place.finish c state none ("Deleted " ++ place.rowPath i) save
  else pure {}

end DocumentPlace
end Cwmp
