import Cwmp.Command.Basic
import Cwmp.Text.Decimal

/-! # Command lines

A command line consists of levels: options of the program, a command with its options and words,
and for some commands a command of their own. Options may stand anywhere on a level, in a long form
after two dashes or in a short form after one. A value follows its option or is attached to it. Two
dashes alone end the options.
-/
namespace Cwmp

inductive LineOption
  | config
  | output
  | color
  | verbose
  | quiet
  | yes
  | path
  | order
  | asDevice
  | write
deriving DecidableEq, Repr

namespace LineOption

def long : LineOption → String
  | config => "config"
  | output => "output"
  | color => "color"
  | verbose => "verbose"
  | quiet => "quiet"
  | yes => "yes"
  | path => "prefix"
  | order => "order"
  | asDevice => "as-device"
  | write => "write"

def short? : LineOption → Option Char
  | output => some 'o'
  | verbose => some 'v'
  | quiet => some 'q'
  | yes => some 'y'
  | write => some 'w'
  | _ => none

def takesValue : LineOption → Bool
  | config | output | color | path | order => true
  | _ => false

/-- The options that may stand on every level. -/
def common : List LineOption :=
  [config, output, color, verbose, quiet, yes]

end LineOption

inductive LineItem
  | option (o : LineOption) (value : String)
  | word (s : String)
deriving DecidableEq, Repr

namespace LineItem

/-- The items of one long option, and the option if its value is still to come. -/
def ofLong (allowed : List LineOption) (body : List Char) :
    Option (List LineItem × Option LineOption) :=
  let name := body.takeWhile (· ≠ '=')
  match allowed.find? fun o => o.long.toList == name, body.drop name.length with
  | none, _ => none
  | some o, [] => if o.takesValue then some ([], some o) else some ([option o ""], none)
  | some o, _ :: value =>
    if o.takesValue then some ([option o (String.ofList value)], none) else none

/-- The items of a row of short options, of which the last one may have a value. -/
def ofShort (allowed : List LineOption) :
    List Char → Option (List LineItem × Option LineOption)
  | [] => some ([], none)
  | c :: rest =>
    match allowed.find? fun o => o.short? == some c with
    | none => none
    | some o =>
      if o.takesValue then
        match rest with
        | [] => some ([], some o)
        | '=' :: value | value => some ([option o (String.ofList value)], none)
      else (ofShort allowed rest).map fun (items, open?) => (option o "" :: items, open?)

/-- The items of a level, and what follows the level. A level with inner commands ends before the
first word. `open?` is the option that waits for its value. -/
def ofArguments (allowed : List LineOption) (hasCommands : Bool) (open? : Option LineOption) :
    List String → Option (List LineItem × List String)
  | [] => if open?.isNone then some ([], []) else none
  | argument :: rest =>
    match open?, argument.toList with
    | some _, '-' :: _ :: _ => none
    | some o, _ =>
      (ofArguments allowed hasCommands none rest).map fun (items, after) =>
        (option o argument :: items, after)
    | none, ['-', '-'] => if hasCommands then none else some (rest.map word, [])
    | none, '-' :: '-' :: body => do
      let (first, open?) ← ofLong allowed body
      let (items, after) ← ofArguments allowed hasCommands open? rest
      pure (first ++ items, after)
    | none, '-' :: c :: body => do
      let (first, open?) ← ofShort allowed (c :: body)
      let (items, after) ← ofArguments allowed hasCommands open? rest
      pure (first ++ items, after)
    | none, _ =>
      if hasCommands then some ([], argument :: rest)
      else (ofArguments allowed hasCommands none rest).map fun (items, after) =>
        (word argument :: items, after)

def option? : LineItem → Option (LineOption × String)
  | option o value => some (o, value)
  | word _ => none

def word? : LineItem → Option String
  | option .. => none
  | word s => some s

end LineItem

structure LineLevel where
  options : List (LineOption × String)
  words : List String

namespace LineLevel

/-- Reads a level, and gives what follows it. Only how verbose the program is may be said more than
once. -/
def read? (allowed : List LineOption) (hasCommands : Bool) (arguments : List String) :
    Option (LineLevel × List String) := do
  let (items, after) ← LineItem.ofArguments allowed hasCommands none arguments
  let options := items.filterMap LineItem.option?
  guard (((options.map Prod.fst).filter (· ≠ .verbose)).Nodup)
  pure (⟨options, items.filterMap LineItem.word?⟩, after)

def value? (l : LineLevel) (o : LineOption) : Option String :=
  l.options.lookup o

def has (l : LineLevel) (o : LineOption) : Bool :=
  (l.value? o).isSome

/-- The value of an option if it is there. It has to be one that `read` takes. -/
def valueOf? {A : Type} (l : LineLevel) (o : LineOption) (read : String → Option A) :
    Option (Option A) :=
  match l.value? o with
  | none => some none
  | some s => (read s).map some

/-- A path has at least one character. -/
def filePath? (s : String) : Option String :=
  if s = "" then none else some s

def outputFormat? : String → Option OutputFormat :=
  ofWord? OutputFormat.word OutputFormat.all

def common? (l : LineLevel) : Option CommonOptions := do
  let settingsFile ← l.valueOf? .config filePath?
  let output ← l.valueOf? .output outputFormat?
  let color ← l.valueOf? .color (ofWord? ColorMode.word ColorMode.all)
  pure { settingsFile, output, color, quiet := l.has .quiet, yes := l.has .yes }

end LineLevel

def settingsFileVariable : String := "TR069_CONFIG"

def outputVariable : String := "TR069_OUTPUT"

/-- The common options that variables give to a level on which `given` stand. A variable is read
where its option is left out, and has to make sense there. -/
def CommonOptions.ofVariables? (environment : List (String × String)) (given : CommonOptions) :
    Option CommonOptions := do
  let from? {A : Type} (present : Bool) (name : String) (read : String → Option A) :
      Option (Option A) :=
    match environment.lookup name with
    | some s => if present then some none else (read s).map some
    | none => some none
  let settingsFile ← from? given.settingsFile.isSome settingsFileVariable LineLevel.filePath?
  let output ← from? given.output.isSome outputVariable LineLevel.outputFormat?
  pure { settingsFile, output }

inductive CommandName
  | objects
  | schema
  | defaults
  | params
  | validate
  | set
  | add
  | delete
  | config
deriving DecidableEq, Repr

namespace CommandName

def ofWord? : String → Option CommandName
  | "objects" | "ls" => some objects
  | "schema" => some schema
  | "defaults" => some defaults
  | "params" | "get" => some params
  | "validate" => some validate
  | "set" => some set
  | "add" => some add
  | "delete" | "rm" => some delete
  | "config" => some config
  | _ => none

def options : CommandName → List LineOption
  | params | validate => [.path]
  | set => [.asDevice, .write]
  | add => [.order, .asDevice, .write]
  | delete => [.write]
  | objects | schema | defaults | config => []

end CommandName

def originOf (l : LineLevel) : Origin :=
  if l.has .asDevice then .device else .controller

def rank? (s : String) : Option UInt32 :=
  match Text.signed? Text.int64Min Text.int64Max s.toList with
  | some i => if 0 ≤ i ∧ i ≤ Text.uint32Max then some (UInt32.ofNat i.toNat) else none
  | none => none

def place? (kind file : String) : Option DocumentPlace := do
  pure ⟨← ObjectKind.ofName? kind, ← LineLevel.filePath? file⟩

def command? (name : CommandName) (l : LineLevel) : Option Command :=
  match name, l.words with
  | .objects, [] => some .objects
  | .schema, [kind] => (ObjectKind.ofName? kind).map .schema
  | .defaults, [kind] => (ObjectKind.ofName? kind).map .defaults
  | .params, [kind, file] => (place? kind file).map fun place => .params place (l.value? .path)
  | .validate, [kind, file] => (place? kind file).map .validate
  | .set, kind :: file :: row :: value :: values =>
    (place? kind file).map fun place =>
      .set place row (value :: values) (originOf l) (l.has .write)
  | .add, kind :: file :: values => do
    let place ← place? kind file
    let rank ← l.valueOf? .order rank?
    pure (.add place values rank (originOf l) (l.has .write))
  | .delete, [kind, file, row] =>
    (place? kind file).map fun place => .delete place row (l.has .write)
  | _, _ => none

def settingsCommand? : String → Option SettingsCommand
  | "init" => some .init
  | "show" => some .display
  | "path" => some .path
  | _ => none

namespace Invocation

/-- The levels of a command line, the innermost one last, with the command. -/
def levels? (arguments : List String) : Option (List LineLevel × Command) := do
  let (top, rest) ← LineLevel.read? LineOption.common true arguments
  let word ← rest.head?
  let name ← CommandName.ofWord? word
  if name = .config then
    let (middle, rest) ← LineLevel.read? LineOption.common true rest.tail
    let command ← settingsCommand? (← rest.head?)
    let (inner, _) ← LineLevel.read? LineOption.common false rest.tail
    guard (inner.words = [])
    pure ([top, middle, inner], .settings command)
  else
    let (inner, _) ← LineLevel.read? (LineOption.common ++ name.options) false rest.tail
    pure ([top, inner], ← command? name inner)

/-- What a command line asks for, if it can be understood. -/
def read? (environment : List (String × String)) (arguments : List String) : Option Invocation := do
  let (levels, command) ← levels? arguments
  let given ← levels.mapM LineLevel.common?
  let fallbacks ← given.mapM (CommonOptions.ofVariables? environment)
  let common := given.foldl (fun outer inner => inner.over outer) {}
  pure ⟨fallbacks.foldl CommonOptions.over common, command⟩

end Invocation
end Cwmp
