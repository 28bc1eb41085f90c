import RainCheck.Fault
import RainCheck.Terminal.Escape
import RainCheck.Text.Utf8

/-!
# Tables

A `Table` has rows of cells in columns, measured in bytes.
* A column is as wide as its longest cell, but not wider than the bound set for it when it was set.
* A cell that is too long is cut, and two dots mark the cut.
* Every cell but the last of a row is filled up to the width of its column, and two blanks divide columns.
-/

namespace RainCheck

/-- A cell and how it is displayed. -/
structure Cell where
  text : List UInt8
  escape : Option Escape := none
  deriving DecidableEq, Repr

/-- Rows of cells, and the widths of the columns. -/
structure Table where
  widths : List Nat
  rows : List (List Cell) := []
  /-- Whether the escapes of cells are written. -/
  escapes : Bool := true
  deriving DecidableEq, Repr

namespace Table

/-- The largest number of columns whose widths any memory holds. -/
def maxColumns : Nat := 0x200000000000

/-- A table without rows. -/
def ofWidth (columns : Nat) : Except Fault Table :=
  if columns ≤ maxColumns then .ok { widths := List.replicate columns 0 } else .error .tooLarge

/-- The number of columns. -/
def width (t : Table) : Nat := t.widths.length

/-- The number of rows. -/
def height (t : Table) : Nat := t.rows.length

/-- Adds a row, which has to have a cell for each column. -/
def addRow (t : Table) (cells : List String) : Except Fault Table :=
  if cells.length = t.width then
    let cells := cells.map fun c => { text := Utf8.encode c : Cell }
    .ok { t with widths := List.zipWith max t.widths (cells.map (·.text.length)), rows := t.rows ++ [cells] }
  else .error .columnCount

/-- The text of a cell. -/
def get (t : Table) (column row : Nat) : Except Fault (List UInt8) := do
  return (← itemAt (← itemAt t.rows row) column).text

/-- Sets the escape of a cell. -/
def setEscape (t : Table) (column row : Nat) (e : Escape) : Except Fault Table := do
  let cells ← itemAt t.rows row
  let cell ← itemAt cells column
  return { t with rows := t.rows.set row (cells.set column { cell with escape := some e }) }

/-- Bounds the width that a column has so far. -/
def setMaxWidth (t : Table) (column bound : Nat) : Except Fault Table := do
  let w ← itemAt t.widths column
  return { t with widths := t.widths.set column (min w bound) }

/-- A text that fits into a width, or its start with the mark of a cut. -/
def fit (width : Nat) (text : List UInt8) : List UInt8 :=
  if width < text.length then text.take (width - 2) ++ Utf8.encode ".." else text

/-- Blanks that fill a text up to a width; a longer text cannot be filled up. -/
def fill (width length : Nat) : Except Fault (List UInt8) :=
  if length ≤ width then .ok (List.replicate (width - length) 32) else .error .negativeRepeat

/-- A text with its escape, if it has one that is to be written. -/
def display (escapes : Bool) (e : Option Escape) (text : List UInt8) : List UInt8 :=
  match escapes, e with
  | true, some e => Utf8.encode e.text ++ text ++ Utf8.encode Escape.reset.text
  | _, _ => text

/-- The cells of a row in columns of the given widths. -/
def printCells (escapes : Bool) : List Cell → List Nat → Except Fault (List UInt8)
  | [], _ => .ok []
  | _ :: _, [] => .error .outOfRange
  | [cell], w :: _ => .ok (display escapes cell.escape (fit w cell.text))
  | cell :: rest, w :: ws => do
    let text := fit w cell.text
    let blanks ← fill w text.length
    let rest ← printCells escapes rest ws
    return display escapes cell.escape text ++ blanks ++ Utf8.encode "  " ++ rest

/-- The lines of a table. -/
def print (t : Table) : Except Fault (List UInt8) := do
  let lines ← t.rows.mapM fun row => return (← printCells t.escapes row t.widths) ++ [10]
  return lines.flatten

end Table

end RainCheck
