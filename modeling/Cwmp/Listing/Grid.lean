import Cwmp.Text.Columns
import Cwmp.Text.CommaList

/-! # Grids

Listings in columns inside a frame of lines with round corners. A column is as wide as its widest
line and has a blank on either side. A painted text is as wide as its characters with those of the
paint.
-/
namespace Cwmp

/-- A way to show a text on a terminal. -/
inductive Paint
  | green
  | red
  | dim
deriving DecidableEq, Repr

def Paint.escape (parameter : String) : String :=
  "\x1b[" ++ parameter ++ "m"

def Paint.apply (p : Paint) (s : String) : String :=
  match p with
  | green => escape "32" ++ s ++ escape "39"
  | red => escape "31" ++ s ++ escape "39"
  | dim => escape "2" ++ s ++ escape "0"

namespace Grid

open Text

/-- The lines of a cell. There is at least one. -/
def cellLines (cell : String) : List String :=
  (splitAt '\n' cell.toList).map String.ofList

def largest (numbers : List Nat) : Nat :=
  numbers.foldl max 0

def cellWidth (cell : String) : Nat :=
  largest ((cellLines cell).map columns)

def widths : List (List String) → List Nat
  | [] => []
  | row :: rows => (row.zipIdx).map fun (cell, column) =>
    largest (cellWidth cell :: rows.map fun row => (row[column]?.map cellWidth).getD 0)

def fill (width : Nat) (s : String) : String :=
  s ++ String.ofList (List.replicate (width - columns s) ' ')

/-- A line of the frame, from its corners and the crossings between columns. -/
def rule (left crossing right : String) (widths : List Nat) : String :=
  let line := widths.map fun w => String.ofList (List.replicate (w + 2) '─')
  left ++ joinWith crossing line ++ right

/-- The lines of a row. A cell with few lines is empty further down. -/
def rowLines (widths : List Nat) (row : List String) : List String :=
  let cells := row.map cellLines
  (List.range (largest (cells.map List.length))).map fun number =>
    "│ " ++ joinWith " │ " ((cells.zip widths).map fun (lines, width) =>
      fill width (lines[number]?.getD "")) ++ " │"

/-- A grid with a row of titles. Without other rows nothing stands below the titles. -/
def text (titles : List String) (rows : List (List String)) : String :=
  let widths := widths (titles :: rows)
  let head := rule "╭" "┬" "╮" widths :: rowLines widths titles ++ [rule "├" "┼" "┤" widths]
  let body := rows.flatMap (rowLines widths) ++ [rule "╰" "┴" "╯" widths]
  joinWith "\n" (if rows = [] then head else head ++ body)

end Grid
end Cwmp
