import Cwmp.Schema.Field

/-! # Entities

An object of the data model, or a row of one of its tables, is a structure of parameters and of
child tables. What the generic routines need of it is its path, the description of its parameters
and the two ways between the structure and its parts, which are inverse to each other.
-/
namespace Cwmp

/-- One step on the way to an object: down to a named part, or to a row of a table. -/
inductive PathStep
  | part (name : String)
  | row
deriving DecidableEq, Repr

/-- The place of an object in the data model. -/
abbrev ObjectPath := List PathStep

namespace ObjectPath

def text (p : ObjectPath) : String :=
  String.join (p.map fun
    | .part name => name ++ "."
    | .row => "\x7bi\x7d.")

/-- The path of the table that holds the rows of this path, below the first row of every table
further up. -/
def tableText (p : ObjectPath) : String :=
  let table := if p.getLast? = some .row then p.dropLast else p
  String.join (table.map fun
    | .part name => name ++ "."
    | .row => "1.")

end ObjectPath

structure ChildTable where
  name : String
  Rows : Type
  [codec : Codec Rows]

def Children : List ChildTable → Type
  | [] => Unit
  | c :: children => c.Rows × Children children

namespace Children

/-- The members that child tables take in a document. -/
def encode : (children : List ChildTable) → Children children → List (Key × Doc)
  | [], _ => []
  | c :: children, (t, r) => (.name c.name, c.codec.encode t) :: encode children r

/-- Replaces the child table `name` by what a document says; nothing if there is none. -/
def load? (name : String) (d : Doc) :
    (children : List ChildTable) → Children children →
      Option (Except LoadFault (Children children))
  | [], _ => none
  | c :: children, (t, r) =>
    if c.name = name then some ((c.codec.decode d).map fun u => (u, r))
    else (load? name d children r).map fun loaded => loaded.map fun r => (t, r)

end Children

/-- Parameters on all of which no two enabled rows of a table may agree. On no parameters at all any
two rows would. -/
structure UniqueKey where
  parameters : List String
  ne_nil : parameters ≠ [] := by decide

/-- An object of the data model. -/
class Entity (E : Type) where
  path : ObjectPath
  fields : List Field
  children : List ChildTable
  parts : E → Record fields × Children children
  ofParts : Record fields × Children children → E
  ofParts_parts : ∀ e, ofParts (parts e) = e := by intro _; rfl
  parts_ofParts : ∀ p, parts (ofParts p) = p := by intro _; rfl
  initial : E
  keys : List UniqueKey := []
  /-- Rows that are not enabled may agree with others on a unique key. -/
  isEnabled : E → Bool := fun _ => true

namespace Entity

variable {E : Type} [Entity E]

variable (E) in
def pathText : String :=
  (path E).text

variable (E) in
def field? (name : String) : Option Field :=
  (fields E).find? fun f => f.name == name

variable (E) in
/-- The unique keys of the rows of a table, by their parameters. -/
def uniqueKeys : List (List String) :=
  (keys E).map (·.parameters)

def record (e : E) : Record (fields E) :=
  (parts e).1

/-- The object with other parameters and the same child tables. -/
def withRecord (e : E) (r : Record (fields E)) : E :=
  ofParts (r, (parts e).2)

def get? (e : E) (name : String) : Option Value :=
  (record e).get? name

/-- Stores a value as the parameter `name`, whatever the bounds and conditions on it. -/
def put (e : E) (name : String) (v : Value) : Except StoreFault E :=
  ((record e).put name v).map (withRecord e)

/-- `put` where a value that is not stored changes nothing. -/
def assign (e : E) (name : String) (v : Value) : E :=
  match put e name v with
  | .ok e => e
  | .error _ => e

def values (e : E) : List (Field × Value) :=
  (record e).values

/-- The value of the parameter `name` as a reader gets it. -/
def read? (e : E) (name : String) : Option Value :=
  match field? E name with
  | some f => (get? e name).map f.shown
  | none => none

def texts (e : E) : List (String × String) :=
  (values e).map fun (f, v) => (f.name, (f.shown v).write)

/-- The parameters whose values differ from those of the object as created, with their texts. -/
def changes (e : E) : List (String × String) :=
  (values e).filterMap fun (f, v) =>
    if get? (initial : E) f.name = some v then none else some (f.name, v.write)

def validate (e : E) : List ParameterFault :=
  (values e).filterMap fun (f, v) =>
    match f.shape.kind.check f.name v with
    | .ok _ => none
    | .error fault => some fault

def aliasName : String := "Alias"

def alias? (e : E) : Option String :=
  match get? e aliasName with
  | some (.text s) => some s
  | _ => none

def withAlias (e : E) (s : String) : E :=
  assign e aliasName (.text s)

/-- A gate is open when its mode has one of the allowed texts. -/
def isOpen (e : E) (g : Gate) : Bool :=
  match get? e g.mode with
  | some v => g.allowed.contains v.write
  | none => false

theorem ne_nil_of_mem_uniqueKeys {key : List String} (h : key ∈ uniqueKeys E) : key ≠ [] := by
  obtain ⟨k, -, rfl⟩ := List.mem_map.1 h
  exact k.ne_nil

@[simp] theorem record_withRecord (e : E) (r : Record (fields E)) :
    record (withRecord e r) = r := by
  simp [record, withRecord, parts_ofParts]

@[simp] theorem withRecord_record (e : E) : withRecord e (record e) = e := by
  exact ofParts_parts e

/-- Writing parameters leaves the child tables alone. -/
@[simp] theorem children_withRecord (e : E) (r : Record (fields E)) :
    (parts (withRecord e r)).2 = (parts e).2 := by
  simp [withRecord, parts_ofParts]

end Entity

/-- A row that has a rank among the rows of its table. The rank is one of its parameters, which has
no part in the rules between rows, and giving a row a rank changes nothing else of it. -/
class Ranked (E : Type) [Entity E] where
  rankName : String
  rank : E → UInt32
  withRank : E → UInt32 → E
  field?_rankName : Entity.field? E rankName = some (.rw rankName (.unsigned 1 4294967295)) := by
    rfl
  rankName_not_mem_key : ∀ key ∈ Entity.uniqueKeys E, rankName ∉ key := by decide
  rank_withRank : ∀ e n, rank (withRank e n) = n := by intro _ _; rfl
  withRank_rank : ∀ e, withRank e (rank e) = e := by intro _; rfl
  withRank_withRank : ∀ e m n, withRank (withRank e m) n = withRank e n := by intro _ _ _; rfl
  get?_rankName : ∀ e, Entity.get? e rankName = some (.unsigned (rank e).toNat) := by
    intro _; rfl
  put_rankName : ∀ e (n : UInt32),
    Entity.put e rankName (.unsigned n.toNat) = .ok (withRank e n)
  isEnabled_withRank : ∀ e n, Entity.isEnabled (withRank e n) = Entity.isEnabled e := by
    intro _ _; rfl

/-- A row that goes away by itself at some time. -/
class Expiring (E : Type) where
  expiresAt : E → Option Instant

def Expiring.isExpired {E : Type} [Expiring E] (e : E) (now : Instant) : Bool :=
  (expiresAt e).any (· ≤ now)

/-- A row that tells which candidates it applies to. -/
class Classifier (E : Type) (Candidate : outParam Type) where
  applies : E → Candidate → Bool

end Cwmp
