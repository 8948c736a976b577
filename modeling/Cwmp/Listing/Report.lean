import Cwmp.Json.Write
import Cwmp.Listing.Grid
import Cwmp.Yaml.Write

/-! # Reports

The result of a command in every form in which a user may want it: as a grid to look at, as plain
lines for scripts, and as a document in one of three layouts.
-/
namespace Cwmp

inductive OutputFormat
  | table
  | json
  | jsonCompact
  | yaml
  | plain
deriving DecidableEq, Repr

namespace OutputFormat

def word : OutputFormat → String
  | table => "table"
  | json => "json"
  | jsonCompact => "json-compact"
  | yaml => "yaml"
  | plain => "plain"

def all : List OutputFormat :=
  [table, json, jsonCompact, yaml, plain]

end OutputFormat

inductive ColorMode
  | auto
  | always
  | never
deriving DecidableEq, Repr

namespace ColorMode

def word : ColorMode → String
  | auto => "auto"
  | always => "always"
  | never => "never"

def all : List ColorMode :=
  [auto, always, never]

/-- Whether to paint, on a terminal that may show colors or somewhere else. -/
def isOn (mode : ColorMode) (terminal : Bool) : Bool :=
  match mode with
  | auto => terminal
  | always => true
  | never => false

end ColorMode

/-- The value among some that has a word as its name. -/
def ofWord? {A : Type} (word : A → String) (all : List A) (s : String) : Option A :=
  all.find? fun a => word a == s

/-- `ofWord?` where the case of ASCII letters does not count. -/
def ofWordAnyCase? {A : Type} (word : A → String) (all : List A) (s : String) : Option A :=
  ofWord? word all (String.ofList (s.toList.map Char.toLower))

structure Report where
  grid : String
  plain : String
  doc : Doc

namespace Report

universe u

def text (r : Report) : OutputFormat → String
  | .table => r.grid
  | .plain => r.plain
  | .json => Json.pretty r.doc
  | .jsonCompact => Json.compact r.doc
  | .yaml => Yaml.write r.doc

/-- The report of a list: titles of columns, and for each item its cells, its line and its
document. -/
def ofItems {A : Type u} (titles : List String) (cells : A → List String) (line : A → String)
    (doc : A → Doc) (items : List A) : Report where
  grid := Grid.text titles (items.map cells)
  plain := Text.joinWith "\n" (items.map line)
  doc := .list (items.map doc)

def ofParameters : List (String × String) → Report :=
  ofItems ["Parameter", "Value"] (fun (name, value) => [name, value])
    (fun (name, value) => name ++ "=" ++ value)
    (fun (name, value) => .table [(.name "parameter", .text name), (.name "value", .text value)])

end Report
end Cwmp
