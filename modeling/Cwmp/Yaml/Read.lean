import Cwmp.Yaml.Scalar
import Cwmp.Yaml.Write

/-! # Reading YAML

Documents in block style with scalars of every style and collections in brackets. A document is a
list of lines, each with its indentation; a structure or a list takes the lines that are indented
like its first one. Anchors, tags and keys that are no single scalars are not understood.
-/
namespace Cwmp.Yaml

open Text

/-- A line: its indentation, and the rest without the line end. -/
structure Line where
  indent : Nat
  text : List Char
deriving DecidableEq, Repr

def Line.ofChars (s : List Char) : Line where
  indent := (s.takeWhile (· == ' ')).length
  text := s.dropWhile (· == ' ')

/-- A line as it was before it was taken apart. -/
def Line.chars (l : Line) : List Char :=
  List.replicate l.indent ' ' ++ l.text

def linesOf (s : List Char) : List Line :=
  (splitAt '\n' s).map fun line =>
    Line.ofChars (if line.getLast? = some '\r' then line.dropLast else line)

/-- A line that holds nothing but blanks or a comment. -/
def Line.isVoid (l : Line) : Bool :=
  match l.text.dropWhile isPad with
  | [] => true
  | c :: _ => c == '#'

def skipVoid (lines : List Line) : List Line :=
  lines.dropWhile Line.isVoid

/-- Nothing but a comment may follow a value on its line. -/
def isTail (s : List Char) : Bool :=
  match s with
  | [] => true
  | c :: _ => isPad c && (Line.ofChars s).isVoid

/-- The mark of a document's start or end. -/
def Line.isMark (mark : String) (l : Line) : Bool :=
  l.indent == 0 && mark.toList.isPrefixOf l.text && (l.text.drop 3).head?.all isPad

/-- Whether a line is an item of a list. -/
def Line.isItem (l : Line) : Bool :=
  match l.text with
  | '-' :: rest => rest.head?.all isPad
  | _ => false

/-- A plain scalar on one line, after `done`: up to a comment or to a colon before a blank. -/
def plainPart (done : List Char) : List Char → List Char × List Char
  | [] => ((dropPads done).reverse, [])
  | c :: rest =>
    if (c == '#' && done.head?.all isPad) || (c == ':' && rest.head?.all isPad) then
      ((dropPads done).reverse, c :: rest)
    else plainPart (c :: done) rest

/-- The key with which a line begins, and what follows its colon. -/
def key? (s : List Char) : Option (Key × List Char) :=
  match s with
  | [] => none
  | c :: _ =>
    if c = '\'' ∨ c = '"' then
      match quotedText s with
      | some (t, rest) =>
        match rest.dropWhile isPad with
        | ':' :: rest =>
          if rest.head?.all isPad then some (.name (String.ofList t), rest) else none
        | _ => none
      | none => none
    else if startsNoPlain c then none
    else
      let (t, rest) := plainPart [] s
      match rest with
      | ':' :: rest => some (plainKey (String.ofList t), rest)
      | _ => none

def joinLines (lines : List Line) : List Char :=
  match lines with
  | [] => []
  | [l] => l.chars
  | l :: rest => l.chars ++ '\n' :: joinLines rest

/-- What is left of the text after a value, as lines; only a comment may follow on its line. -/
def resume (s : List Char) : Option (List Line) :=
  let line := s.takeWhile (· != '\n')
  if isTail line then some (linesOf ((s.dropWhile (· != '\n')).drop 1)) else none

/-- The plain scalar that begins with `first` and goes on over deeper lines. -/
def plainLines (level : Nat) (first : List Char) (lines : List Line) :
    Option (List Char × List Line) :=
  let rec more (fuel : Nat) (done : List Char) (voids : Nat) (lines : List Line) :
      Option (List Char × List Line) :=
    match fuel, lines with
    | 0, _ => none
    | _, [] => some (done, [])
    | fuel + 1, l :: rest =>
      if l.text.dropWhile isPad = [] then more fuel done (voids + 1) rest
      else if l.indent < level || l.text.head? == some '#' || l.isMark "---" || l.isMark "..." then
        some (done, l :: rest)
      else
        let (t, after) := plainPart [] l.text
        match after with
        | [] => more fuel (done ++ folded (voids + 1) ++ t) 0 rest
        | '#' :: _ => some (done ++ folded (voids + 1) ++ t, rest)
        | _ => none
  match plainPart [] first with
  | (t, []) => more (lines.length + 1) t 0 lines
  | (t, '#' :: _) => some (t, lines)
  | _ => none

/-- How the line end after a block scalar is kept. -/
inductive Chomp
  | clip
  | strip
  | keep
deriving DecidableEq

/-- The marks after the bar of a block scalar. -/
def chompAndIndent (s : List Char) : Option (Chomp × Option Nat) :=
  let marks := s.takeWhile fun c => !isPad c
  if !isTail (s.drop marks.length) then none
  else match marks with
    | [] => some (.clip, none)
    | ['-'] => some (.strip, none)
    | ['+'] => some (.keep, none)
    | [d] => (digit? d).map fun n => (.clip, some n)
    | ['-', d] | [d, '-'] => (digit? d).map fun n => (.strip, some n)
    | ['+', d] | [d, '+'] => (digit? d).map fun n => (.keep, some n)
    | _ => none

/-- What stands between two lines of a folded block with `empties` empty lines between them. Lines
that begin with a blank are not folded. -/
def foldBreak (previous : Option (List Char)) (empties : Nat) (line : List Char) : List Char :=
  match previous with
  | none => List.replicate empties '\n'
  | some p =>
    if p.head?.any isPad || line.head?.any isPad then List.replicate (empties + 1) '\n'
    else folded (empties + 1)

/-- The text of the lines of a folded block, after a line and some empty ones. -/
def foldLines (previous : Option (List Char)) (empties : Nat) : List (List Char) → List Char
  | [] => []
  | [] :: rest => foldLines previous (empties + 1) rest
  | line :: rest => foldBreak previous empties line ++ line ++ foldLines (some line) 0 rest

/-- The text of a block scalar, and the lines after it. -/
def blockScalar (foldedStyle : Bool) (level : Nat) (marks : List Char) (lines : List Line) :
    Option (List Char × List Line) :=
  match chompAndIndent marks with
  | none => none
  | some (chomp, given) =>
    let isEmpty (l : Line) : Bool := l.text == []
    let indent := match given with
      | some n => level - 1 + n
      | none => ((lines.find? fun l => !isEmpty l).map (·.indent)).getD 0
    let indent := if given.isNone && indent < level then level else indent
    let body := lines.takeWhile fun l => (isEmpty l && l.indent ≤ indent) || indent ≤ l.indent
    let rest := lines.drop body.length
    let texts := body.map fun l => l.chars.drop indent
    let trailing := (texts.reverse.takeWhile (· == [])).length
    let kept := texts.take (texts.length - trailing)
    let content := if foldedStyle then foldLines none 0 kept else List.intercalate ['\n'] kept
    -- No break comes after the last line of the text, which is no line if it is empty.
    let breaks := (if kept = [] then trailing else trailing + 1) - (if rest = [] then 1 else 0)
    let ending := match chomp with
      | .strip => 0
      | .clip => if kept = [] then 0 else min 1 breaks
      | .keep => breaks
    some (content ++ List.replicate ending '\n', rest)

/-- What is being read: a value whose lines are indented to `level` at least, or what is left of a
list or a structure at an indentation. -/
inductive BlockPart
  | value (level : Nat)
  | items (indent : Nat) (done : List Doc)
  | members (indent : Nat) (done : List (Key × Doc))

/-- A value that stands after a key or a dash, or at the beginning of a line, and is neither a list
nor a structure in block style. -/
def inlineValue (level : Nat) (s : List Char) (lines : List Line) : Option (Doc × List Line) :=
  match s with
  | [] => none
  | c :: rest =>
    if c = '|' ∨ c = '>' then
      (blockScalar (c == '>') level rest lines).map fun (t, lines) =>
        (.text (String.ofList t), lines)
    else if c = '\'' ∨ c = '"' then
      match quotedText (joinLines (⟨0, s⟩ :: lines)) with
      | some (t, rest) => (resume rest).map fun lines => (.text (String.ofList t), lines)
      | none => none
    else if c = '[' ∨ c = '\x7b' then
      let whole := joinLines (⟨0, s⟩ :: lines)
      match flow (2 * whole.length + 2) .value whole with
      | some (d, rest) => (resume rest).map fun lines => (d, lines)
      | none => none
    else if startsNoPlain c || ((c == '?' || c == ':') && rest.head?.all isPad) then none
    else (plainLines level s lines).map fun (t, lines) => (.plain (String.ofList t), lines)

/-- Reads a value in block style. -/
def block (fuel : Nat) (part : BlockPart) (lines : List Line) : Option (Doc × List Line) :=
  match fuel with
  | 0 => none
  | fuel + 1 =>
    match part with
    | .value level =>
      match skipVoid lines with
      | [] => some (.plain "", [])
      | l :: rest =>
        if l.indent < level || l.isMark "---" || l.isMark "..." then some (.plain "", l :: rest)
        else if l.isItem then block fuel (.items l.indent []) (l :: rest)
        else if (key? l.text).isSome then block fuel (.members l.indent []) (l :: rest)
        else inlineValue level l.text rest
    | .items indent done =>
      match skipVoid lines with
      | [] => some (.list done.reverse, [])
      | l :: rest =>
        if l.indent = indent ∧ l.isItem then
          let inner := Line.ofChars (' ' :: l.text.drop 1)
          let lines := if inner.isVoid then rest else ⟨indent + inner.indent, inner.text⟩ :: rest
          match block fuel (.value (indent + 1)) lines with
          | some (d, lines) => block fuel (.items indent (d :: done)) lines
          | none => none
        else if indent < l.indent then none
        else some (.list done.reverse, l :: rest)
    | .members indent done =>
      match skipVoid lines with
      | [] => some (.table done.reverse, [])
      | l :: rest =>
        if l.indent < indent || l.isMark "---" || l.isMark "..." then
          some (.table done.reverse, l :: rest)
        else if indent < l.indent then none
        else match key? l.text with
          | none => if l.isItem then some (.table done.reverse, l :: rest) else none
          | some (key, after) =>
            let value :=
              if isTail after then
                match skipVoid rest with
                | next :: more =>
                  if next.indent = indent ∧ next.isItem then
                    block fuel (.items indent []) (next :: more)
                  else block fuel (.value (indent + 1)) rest
                | [] => some (.plain "", [])
              else inlineValue (indent + 1) (after.dropWhile isPad) rest
            match value with
            | some (d, lines) => block fuel (.members indent ((key, d) :: done)) lines
            | none => none

/-- Drops the mark with which a document may begin. -/
def dropStart (lines : List Line) : List Line :=
  match skipVoid lines with
  | l :: rest =>
    if l.isMark "---" then
      let after := Line.ofChars (l.text.drop 3)
      if after.isVoid then rest else ⟨after.indent + 3, after.text⟩ :: rest
    else l :: rest
  | [] => []

/-- The tree of a text that holds one document. -/
def read? (s : String) : Option Doc :=
  let chars := s.toList
  if chars.contains '\x00' then none
  else
    let lines := dropStart (linesOf chars)
    match block (2 * chars.length + 4) (.value 0) lines with
    | none => none
    | some (d, rest) =>
      match skipVoid rest with
      | [] => some d
      | l :: rest => if l.isMark "..." && (skipVoid rest).isEmpty then some d else none

def load {A : Type} [Codec A] (s : String) : Except LoadFault A :=
  match read? s with
  | some d => Codec.decode d
  | none => .error .malformed

end Cwmp.Yaml
