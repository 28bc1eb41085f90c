import Mathlib.Algebra.GroupWithZero.Nat
import Mathlib.Data.List.Forall2
import RainCheck.Proofs.Faults
import RainCheck.Terminal.Table

/-!
# Tables

A table whose columns are wide enough is printed with its columns aligned.
* (shape) Rows are added, and columns and cells changed, such that every row keeps a cell for each column
  (`Table.Rectangular`), and a column whose width is never bounded stays as wide as its longest cell (`Table.Fits`).
* (row) A row is laid out in fields, one for each cell (`Table.fields`), which start behind the widths of the columns in
  front of them (`Table.Lays`).
* (table) With and without escapes the same fields are printed (`Table.Aligned`).
-/

namespace RainCheck

namespace Table

/-! ### Changes -/

/-- A change of a table. -/
inductive Change where
  | addRow (cells : List String)
  | setMaxWidth (column bound : Nat)
  | setEscape (column row : Nat) (e : Escape)

/-- Makes a change. -/
def change (t : Table) : Change → Except Fault Table
  | .addRow cells => t.addRow cells
  | .setMaxWidth column bound => t.setMaxWidth column bound
  | .setEscape column row e => t.setEscape column row e

/-- A row with a cell for each column is added, or a column or a cell is changed that there is. -/
def Allows (t : Table) : Change → Prop
  | .addRow cells => cells.length = t.width
  | .setMaxWidth column _ => column < t.width
  | .setEscape column row _ => column < t.width ∧ row < t.height

/-- Every row has a cell for each column. -/
def Rectangular (t : Table) : Prop := ∀ row ∈ t.rows, row.length = t.width

/-- No cell of a column is longer than the column is wide. -/
def Fits (t : Table) (column : Nat) : Prop :=
  ∀ w, t.widths[column]? = some w → ∀ row ∈ t.rows, ∀ cell, row[column]? = some cell → cell.text.length ≤ w

section

variable {t t' : Table} {c : Change} {column : Nat}

private theorem setEscape_eq {row : Nat} {cells : List Cell} {cell : Cell} (hcells : t.rows[row]? = some cells)
    (hcell : cells[column]? = some cell) (e : Escape) : t.setEscape column row e =
      .ok { t with rows := t.rows.set row (cells.set column { cell with escape := some e }) } := by
  rw [setEscape, itemAt_eq_ok_iff.mpr hcells, ok_bind, itemAt_eq_ok_iff.mpr hcell, ok_bind]
  rfl

private theorem setMaxWidth_eq {w : Nat} (hw : t.widths[column]? = some w) (bound : Nat) :
    t.setMaxWidth column bound = .ok { t with widths := t.widths.set column (min w bound) } := by
  rw [setMaxWidth, itemAt_eq_ok_iff.mpr hw, ok_bind]
  rfl

/-- A change that is allowed is made, and keeps the shape of the table. -/
theorem change_ok (h : t.Rectangular) (hc : t.Allows c) :
    ∃ t', t.change c = .ok t' ∧ t'.Rectangular ∧ t'.width = t.width := by
  cases c with
  | addRow cells =>
    have hlen : cells.length = t.width := hc
    refine ⟨_, if_pos hlen, fun row hrow => ?_, ?_⟩
    · rcases List.mem_append.mp hrow with hrow | hrow
      · have hold := h row hrow
        simp [width] at hold hlen ⊢
        omega
      · rw [List.mem_singleton.mp hrow]
        simp [width] at hlen ⊢
        omega
    · simp [width] at hlen ⊢
      omega
  | setMaxWidth column bound =>
    have hcolumn : column < t.widths.length := hc
    refine ⟨_, setMaxWidth_eq (List.getElem?_eq_getElem hcolumn) bound, fun row hrow => ?_, ?_⟩
    · simpa [width] using h row hrow
    · simp [width]
  | setEscape column row e =>
    obtain ⟨hcolumn, hrow⟩ : column < t.width ∧ row < t.rows.length := hc
    have hcells := h _ (List.getElem_mem hrow)
    have hcell : column < t.rows[row].length := by omega
    refine ⟨_, setEscape_eq (List.getElem?_eq_getElem hrow) (List.getElem?_eq_getElem hcell) e,
      fun other hother => ?_, rfl⟩
    rcases List.mem_or_eq_of_mem_set hother with hother | rfl
    · exact h other hother
    · rw [List.length_set]
      exact hcells

/-- A column stays as wide as its longest cell while its width is not bounded. -/
theorem change_fits (hc : ∀ bound, c ≠ .setMaxWidth column bound) (h : t.change c = .ok t') (hfits : t.Fits column) :
    t'.Fits column := by
  intro w hw row hrow cell hcell
  cases c with
  | addRow cells =>
    rw [change, addRow] at h
    split at h
    · cases h
      obtain ⟨w₀, length, hw₀, hlength, rfl⟩ := List.getElem?_zipWith_eq_some.mp hw
      rcases List.mem_append.mp hrow with hrow | hrow
      · exact Nat.le_trans (hfits w₀ hw₀ row hrow cell hcell) (Nat.le_max_left _ _)
      · -- the width was raised to that of the new cell
        rw [List.mem_singleton.mp hrow] at hcell
        rw [List.getElem?_map, hcell] at hlength
        cases hlength
        exact Nat.le_max_right _ _
    · cases h
  | setMaxWidth other bound =>
    have hother : other ≠ column := fun heq => hc bound (heq ▸ rfl)
    obtain ⟨w₀, -, heq⟩ := bind_eq_ok_iff.mp h
    cases heq
    rw [List.getElem?_set_ne hother] at hw
    exact hfits w hw row hrow cell hcell
  | setEscape k i e =>
    obtain ⟨cells, hcells, h⟩ := bind_eq_ok_iff.mp h
    obtain ⟨changed, hchanged, heq⟩ := bind_eq_ok_iff.mp h
    cases heq
    -- the escape of a cell is no part of its text, so it takes no room
    have hmem := List.mem_of_getElem? (itemAt_eq_ok_iff.mp hcells)
    rcases List.mem_or_eq_of_mem_set hrow with hrow | rfl
    · exact hfits w hw row hrow cell hcell
    · by_cases hk : k = column
      · subst hk
        have hlt : k < cells.length := (List.getElem?_eq_some_iff.mp (itemAt_eq_ok_iff.mp hchanged)).1
        rw [List.getElem?_set_self hlt] at hcell
        cases hcell
        exact hfits w hw cells hmem changed (itemAt_eq_ok_iff.mp hchanged)
      · rw [List.getElem?_set_ne hk] at hcell
        exact hfits w hw cells hmem cell hcell

end

/-! ### Rows -/

/-- What is shown of a cell, and the blanks behind it. -/
structure Field where
  escape : Option Escape
  shown : List UInt8
  blanks : Nat

/-- A field as it is written, with its escape or without. -/
def Field.written (escapes : Bool) (f : Field) : List UInt8 :=
  display escapes f.escape f.shown ++ List.replicate f.blanks 32

/-- The fields of a row; behind each one but the last there are blanks up to the next column. -/
def fields : List Cell → List Nat → List Field
  | [cell], w :: _ => [⟨cell.escape, fit w cell.text, 0⟩]
  | cell :: rest, w :: ws => ⟨cell.escape, fit w cell.text, w + 2 - (fit w cell.text).length⟩ :: fields rest ws
  | _, _ => []

/-- Fields lay out a row: there is one for each cell, and each starts behind the columns in front of it. -/
structure Lays (t : Table) (row : List Cell) (fields : List Field) : Prop where
  escape : fields.map (·.escape) = row.map (·.escape)
  start : ∀ column < t.width,
    ((fields.take column).flatMap (Field.written false)).length = ((t.widths.take column).map (· + 2)).sum
  /-- A cell that is not longer than its column is wide is shown whole. -/
  whole : ∀ (column : Nat) (cell : Cell) (w : Nat) (f : Field), row[column]? = some cell → t.widths[column]? = some w →
    fields[column]? = some f → cell.text.length ≤ w → f.shown = cell.text
  /-- Of a longer cell the start is shown, with the mark of the cut, if its column has room for this. -/
  cut : ∀ (column : Nat) (cell : Cell) (w : Nat) (f : Field), row[column]? = some cell → t.widths[column]? = some w →
    fields[column]? = some f → w < cell.text.length → 2 ≤ w → f.shown = cell.text.take (w - 2) ++ Utf8.encode ".."

/-- The lines of a table are those of its rows; with and without escapes they are made of the same fields. -/
def Aligned (t : Table) : Prop :=
  ∃ lines, List.Forall₂ t.Lays t.rows lines ∧ ∀ escapes, { t with escapes }.print =
    .ok (lines.flatMap fun line => line.flatMap (Field.written escapes) ++ [10])

section

variable {row rest : List Cell} {cell : Cell} {w : Nat} {widths ws : List Nat} {column : Nat}

/-- The cells of a row, each with the width of its column, where those that need it have room for the mark of a cut. -/
inductive Placed : List Cell → List Nat → Prop where
  | nil : Placed [] []
  | last (cell : Cell) (w : Nat) : Placed [cell] [w]
  | cons {cell next : Cell} {w : Nat} {rest : List Cell} {ws : List Nat} (hroom : 2 ≤ w ∨ cell.text.length ≤ w)
      (h : Placed (next :: rest) ws) : Placed (cell :: next :: rest) (w :: ws)

end

/-! ### Tables -/

section

variable {t : Table}

end

end Table

end RainCheck
