import Cwmp.Command.Context
import Cwmp.Entity.Codec

/-! # Reports on the data model

What can be said of objects without a document: which ones there are, the parameters of one of them
and the values that its rows have at first.
-/
namespace Cwmp

open Text

def countFields (E : Type) [Entity E] (p : Field → Bool) : Nat :=
  ((Entity.fields E).filter p).length

namespace ObjectKind

def pathText (kind : ObjectKind) : String :=
  Entity.pathText kind.collection.Row

/-- The path of the table of an object, below the first row of every table further up. -/
def tablePath (kind : ObjectKind) : String :=
  (Entity.path kind.collection.Row).tableText

def uniqueTexts (kind : ObjectKind) : List String :=
  (Entity.uniqueKeys kind.collection.Row).map (joinWith "+")

/-- Rows of which the controller may write nothing but the alias are there because the device made
them. -/
def isDeviceMade (kind : ObjectKind) : Bool :=
  (Entity.fields kind.collection.Row).all fun f => f.name == Entity.aliasName || !f.isWritable

def cells (kind : ObjectKind) : List String :=
  let unique := joinWith "; " kind.uniqueTexts
  [kind.name, kind.pathText, decimal (countFields kind.collection.Row fun _ => true),
    decimal (countFields kind.collection.Row Field.isWritable),
    kind.collection.rankName?.getD "-", if unique = "" then "-" else unique]

def doc (kind : ObjectKind) : Doc :=
  .table [(.name "name", .text kind.name), (.name "path", .text kind.pathText),
    (.name "parameters", .integer (countFields kind.collection.Row fun _ => true)),
    (.name "writable", .integer (countFields kind.collection.Row Field.isWritable)),
    (.name "order_param", (kind.collection.rankName?.map Doc.text).getD .null),
    (.name "unique", .list (kind.uniqueTexts.map .text))]

def report : Report :=
  Report.ofItems ["Object", "Path", "Params", "Writable", "Ranked By", "Unique"] cells
    (fun kind => kind.name ++ "\t" ++ kind.pathText) doc all

end ObjectKind

/-- A kind in a document: its word, with the bounds if it can have some. -/
def Kind.doc : Kind → Doc
  | boolean => .text "Boolean"
  | int bottom top =>
    .variant "Int" (.table [(.name "min", .integer bottom), (.name "max", .integer top)])
  | unsigned bottom top =>
    .variant "UnsignedInt" (.table [(.name "min", .integer bottom), (.name "max", .integer top)])
  | text limit => .variant "String" (limited limit)
  | choice words => .variant "Enum" (.list (words.map .text))
  | moment => .text "DateTime"
  | ipv4 => .text "Ipv4Address"
  | mac => .text "MacAddress"
  | list limit => .variant "List" (limited limit)
where
  limited (limit : Option Nat) : Doc :=
    .table [(.name "max_len", (limit.map fun (n : Nat) => Doc.integer n).getD .null)]

def Access.docWord : Access → String
  | readOnly => "ReadOnly"
  | readWrite => "ReadWrite"

/-- An access in colors: what may be written stands out. -/
def Access.paint : Access → Paint
  | readOnly => .dim
  | readWrite => .green

def NotifyPolicy.docWord : NotifyPolicy → String
  | normal => "Normal"
  | canDeny => "CanDeny"
  | forceEnabled => "ForceEnabled"
  | forceDefaultEnabled => "ForceDefaultEnabled"

def Gate.doc (g : Gate) : Doc :=
  .table [(.name "mode", .text g.mode), (.name "allowed", .list (g.allowed.map .text))]

namespace Field

def doc (f : Field) : Doc :=
  .table [(.name "name", .text f.name), (.name "kind", f.shape.kind.doc),
    (.name "access", .text f.access.docWord), (.name "notify", .text f.notify.docWord),
    (.name "gates", .list (f.gates.map Gate.doc)), (.name "secret", .boolean f.secret)]

def cells (paints : Bool) (f : Field) : List String :=
  let access := f.access.letter
  [f.name, f.shape.kind.typeName, if paints then f.access.paint.apply access else access,
    f.notify.word, if f.gates = [] then "-" else joinWith ", " (f.gates.map Gate.text)]

def report (paints : Bool) (fields : List Field) : Report :=
  Report.ofItems ["Parameter", "Type", "Access", "Notify", "Writable When"] (cells paints)
    (fun f : Field => joinWith "\t" [f.name, f.shape.kind.typeName, f.access.letter]) doc fields

end Field

/-- A row as it is created. -/
def ObjectKind.initialReport (kind : ObjectKind) : Report :=
  let row : kind.collection.Row := Entity.initial
  { Report.ofParameters (Entity.texts row) with doc := Codec.encode row }

end Cwmp
