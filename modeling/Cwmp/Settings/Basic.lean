import Cwmp.Alias
import Cwmp.Options
import Cwmp.Settings.Environment
import Cwmp.Toml.Read

/-! # Settings

What the user may configure: how results are shown, and the options of tables. Settings come from
three places of which the later ones prevail: the defaults, a file and the environment. Values of a
wrong type are refused, unknown ones are not looked at.
-/
namespace Cwmp

/-- The settings as they stand in a file; not all of them need make sense. -/
structure Settings where
  output : String := "table"
  color : String := "auto"
  aliasStart : String := "cpe-"
  maxEntries : Option Nat := none
deriving DecidableEq, Repr

namespace Settings

open Text Toml

/-- The mark of variables that hold settings. -/
def variableStart : String := "TR069_"

mutual

/-- A value over which another one is laid: tables are laid over each other member by member. -/
def overlay : Setting → Setting → Setting
  | .table _ old, .table _ new => .table .closed (overlayMembers old new)
  | _, new => new

def overlayMembers (old : Members) : Members → Members
  | [] => old
  | (name, v) :: rest =>
    let laid := match old.get? name with
      | some v' => overlay v' v
      | none => v
    overlayMembers (old.set name laid) rest

end

/-- A text, or the default where there is none. -/
def textOr (default : String) : Option Setting → Option String
  | none => some default
  | some (.text s) => some s
  | some _ => none

/-- A number of rows, if there is one. -/
def limitOr : Option Setting → Option (Option Nat)
  | none => some none
  | some (.integer i) => if 0 ≤ i then some (some i.toNat) else none
  | some _ => none

/-- The settings of a section by their names: from a table, or from a list that gives them in their
order. -/
def section? (names : List String) : Option Setting → Option (List (Option Setting))
  | none => some (names.map fun _ => none)
  | some (.table _ members) => some (names.map (Members.get? members))
  | some .moment => some (names.map fun _ => none)
  | some (.list items) =>
    if items.length ≤ names.length then
      some (items.map some ++ List.replicate (names.length - items.length) none)
    else none
  | some _ => none

/-- Whether a section that is given as a list names the limit too. -/
def isComplete : Option Setting → Bool
  | some (.list items) => items.length == 2
  | _ => true

/-- The settings that named values give. -/
def ofMembers? (m : Members) : Option Settings := do
  let shown ← section? ["output", "color"] (m.get? "defaults")
  let model ← section? ["alias_prefix", "max_entries"] (m.get? "model")
  match shown, model with
  | [output, color], [start, limit] =>
    guard (isComplete (m.get? "model"))
    let d : Settings := {}
    let output ← textOr d.output output
    let color ← textOr d.color color
    let aliasStart ← textOr d.aliasStart start
    let maxEntries ← limitOr limit
    pure { output, color, aliasStart, maxEntries }
  | _, _ => none

/-- The settings of a file's text, if there is a file, and of variables. Nothing if they cannot be
read. -/
def load? (file : Option String) (environment : List (String × String)) : Option Settings := do
  let members ← match file with
    | some text => Toml.read? text
    | none => some []
  let overrides := environment.filterMap fun (name, text) =>
    Environment.setting? variableStart name text
  let laid := overrides.foldl
    (fun v (path, text) => overlay v (Environment.nest path text)) (.table .closed members)
  match laid with
  | .table _ members => ofMembers? members
  | _ => none

inductive Fault
  | invalidAliasStart (fault : AliasFault)
  | noEntries
deriving DecidableEq, Repr

def Fault.message : Fault → String
  | .invalidAliasStart fault => "invalid model.alias_prefix: " ++ fault.message
  | .noEntries => "invalid model.max_entries: must be at least 1"

/-- The options of tables. The first row's alias has to be well formed, and there has to be room for
it. -/
def options (c : Settings) : Except Fault Options :=
  match Alias.ofDevice c.aliasStart .first with
  | .error fault => .error (.invalidAliasStart fault)
  | .ok _ =>
    if c.maxEntries = some 0 then .error .noEntries
    else .ok { aliasStart := c.aliasStart, maxEntries := c.maxEntries }

/-- One character of a text in double quotes. Line breaks stay where the text has lines of its
own. -/
def escapedChar (inLines : Bool) (c : Char) : String :=
  let n := c.toNat
  if c = '"' then "\\\""
  else if c = '\\' then "\\\\"
  else if c = '\n' ∧ inLines then "\n"
  else match n with
    | 8 => "\\b"
    | 9 => "\\t"
    | 10 => "\\n"
    | 12 => "\\f"
    | 13 => "\\r"
    | _ =>
      if n < 0x20 ∨ n = 0x7F then "\\u" ++ String.ofList ((hexPadded 4 n).map Char.toUpper)
      else c.toString

def isControl (c : Char) : Bool :=
  c.toNat < 0x20 || c.toNat == 0x7F

/-- Whether two single quotes stand next to each other more than once in a row. -/
def hasTripleQuote : List Char → Bool
  | '\'' :: '\'' :: '\'' :: _ => true
  | _ :: rest => hasTripleQuote rest
  | [] => false

/-- A text in the quotes that show it best: single ones where double ones would need escapes, three
of them where the text has several lines or quotes of its own. -/
def quotedText (s : String) : String :=
  let chars := s.toList
  let inLines := chars.contains '\n'
  let prefersLiteral := chars.any fun c => c == '"' || c == '\\'
  let literalFits :=
    chars.all (fun c => !isControl c || c == '\t' || c == '\n') && !hasTripleQuote chars &&
      chars.getLast? != some '\''
  if prefersLiteral && literalFits then
    if inLines then "'''\n" ++ s ++ "'''"
    else if chars.contains '\'' then "'''" ++ s ++ "'''"
    else "'" ++ s ++ "'"
  else if inLines then "\"\"\"\n" ++ String.join (chars.map (escapedChar true)) ++ "\"\"\""
  else "\"" ++ String.join (chars.map (escapedChar false)) ++ "\""

/-- The text of a file with these settings; nothing if a number is too large for a file. -/
def write? (c : Settings) : Option String :=
  let start := "[defaults]\noutput = " ++ quotedText c.output ++ "\ncolor = " ++
    quotedText c.color ++ "\n\n[model]\nalias_prefix = " ++ quotedText c.aliasStart ++ "\n"
  match c.maxEntries with
  | none => some start
  | some n =>
    if (n : Int) ≤ int64Max then some (start ++ "max_entries = " ++ decimal n ++ "\n") else none

end Settings
end Cwmp
