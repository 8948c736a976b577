import Cwmp.Schema.Shape

/-! # Fields

The description of one parameter of an object: its name and shape, who may write it, how changes of
it are notified, and the modes on which writing it depends.
-/
namespace Cwmp

/-- Who may write a parameter: the device only, or the controller too. -/
inductive Access
  | readOnly
  | readWrite
deriving DecidableEq, Repr

def Access.letter : Access → String
  | readOnly => "R"
  | readWrite => "W"

/-- How active notification of a parameter may be set. -/
inductive NotifyPolicy
  | normal
  /-- The device may refuse active notification. -/
  | canDeny
  /-- Active notification is always on. -/
  | forceEnabled
  /-- Active notification is on at first. -/
  | forceDefaultEnabled
deriving DecidableEq, Repr

def NotifyPolicy.word : NotifyPolicy → String
  | normal => "normal"
  | canDeny => "canDeny"
  | forceEnabled => "forceEnabled"
  | forceDefaultEnabled => "forceDefaultEnabled"

/-- A condition for writing: another parameter of the object, the mode, has one of these texts. -/
structure Gate where
  mode : String
  allowed : List String
deriving DecidableEq, Repr

def Gate.text (g : Gate) : String :=
  g.mode ++ "=" ++ Text.joinWith "|" g.allowed

structure Field where
  name : String
  shape : Shape
  access : Access
  notify : NotifyPolicy := .normal
  /-- All gates have to be open when the controller writes. -/
  gates : List Gate := []
  /-- A value that is written and used but not shown. -/
  secret : Bool := false

namespace Field

/-- A parameter that the controller may write. -/
def rw (name : String) (shape : Shape) : Field where
  name := name
  shape := shape
  access := .readWrite

/-- A parameter that only the device writes. -/
def ro (name : String) (shape : Shape) : Field where
  name := name
  shape := shape
  access := .readOnly

def notifying (f : Field) (policy : NotifyPolicy) : Field :=
  { f with notify := policy }

def gated (f : Field) (gates : List Gate) : Field :=
  { f with gates := gates }

def hidden (f : Field) : Field :=
  { f with secret := true }

def isWritable (f : Field) : Bool :=
  f.access == .readWrite

/-- The value that a reader gets of a stored one. -/
def shown (f : Field) (v : Value) : Value :=
  if f.secret then .text "" else v

end Field

/-- The parameters of an object, one component per field. -/
def Record : List Field → Type
  | [] => Unit
  | f :: fields => f.shape.Carrier × Record fields

namespace Record

def values : (fields : List Field) → Record fields → List (Field × Value)
  | [], _ => []
  | f :: fields, (a, r) => (f, f.shape.value a) :: values fields r

def get? (name : String) : (fields : List Field) → Record fields → Option Value
  | [], _ => none
  | f :: fields, (a, r) => if f.name = name then some (f.shape.value a) else get? name fields r

def put (name : String) (v : Value) :
    (fields : List Field) → Record fields → Except StoreFault (Record fields)
  | [], _ => .error (.unknownParameter name)
  | f :: fields, (a, r) =>
    if f.name = name then (f.shape.store v).map fun b => (b, r)
    else (put name v fields r).map fun r => (a, r)

def encode : (fields : List Field) → Record fields → List (Key × Doc)
  | [], _ => []
  | f :: fields, (a, r) => (.name f.name, f.shape.encode a) :: encode fields r

/-- Replaces the parameter `name` by what a document says; nothing if there is no such parameter. -/
def load? (name : String) (d : Doc) :
    (fields : List Field) → Record fields → Option (Except LoadFault (Record fields))
  | [], _ => none
  | f :: fields, (a, r) =>
    if f.name = name then some ((f.shape.decode d).map fun b => (b, r))
    else (load? name d fields r).map fun loaded => loaded.map fun r => (a, r)

end Record
end Cwmp
