import RainCheck.Compile
import RainCheck.Terminal.Table

/-!
# Reports

What is shown to the user: diagnostics with the line they are about, and the exports of a file as a table.
* A diagnostic shows its line with carets below the part that its span covers there, or one caret if it covers none.
* The table of exports has a row for each exported struct and then for each exported function; what could not be
  resolved is shown as a question mark.
-/

namespace RainCheck

/-- The longest text that any memory holds, but for the text of a file that there is. -/
def maxTextLength : Nat := 0x1000000000000

/-- A number of blanks, which cannot be negative; there is room for as many as the file has characters. -/
def indentation (file : SourceFile) (width : Int) : Except Fault String :=
  if width < 0 then .error .negativeRepeat
  else if max maxTextLength file.length < width then .error .tooLarge
  else .ok (String.ofList (List.replicate width.toNat ' '))

/-- A diagnostic of a file with the line it is about; it cannot be about a position in front of its line. -/
def Diagnostic.print (file : SourceFile) (colour : Bool) (d : Diagnostic) : Except Fault String := do
  let line := file.lineAt d.span.start
  let offset := d.span.start - line.start
  let length := max 1 (min (line.length - offset) d.span.length)
  let carets := String.ofList (List.replicate length.toNat '^')
  let carets := if colour then ((Escape.mk []).colour Escape.red).bold.wrap carets else carets
  let kind := if colour then Escape.boldText.wrap d.kind.name else d.kind.name
  return file.name ++ ":" ++ toString line.number ++ ":" ++ toString (1 + offset) ++ "-" ++
    toString (1 + offset + length) ++ " " ++ kind ++ ": " ++ d.message ++ "\n\n" ++ line.toString ++ "\n" ++
    (← indentation file offset) ++ carets ++ "\n"

namespace Store

/-- The text of one field of a struct. -/
def fieldText (s : Store) (field : String × TypeId) : Except Fault String := do
  return " " ++ field.1 ++ ": " ++ (← s.types.text field.2)

/-- The fields of a resolved struct in braces. -/
def structText (s : Store) (type : TypeId) : Except Fault String := do
  match ← s.types.get type with
  | .struct _ (.resolved fields) =>
    let fields ← fields.mapM s.fieldText
    return "".push '{' ++ ",".intercalate fields ++ " ".push '}'
  | _ => return "?"

/-- The text of the type of a variable. -/
def variableText (s : Store) (v : Variable) : Except Fault String :=
  match (s.typeOf v).value? with
  | some type => s.types.text type
  | none => .ok "?"

/-- The rows of the table of exports. -/
def exportRows (s : Store) : Except Fault (List (List String)) := do
  let structs ← (← s.frames.exportedTypes).mapM fun (name, type) => return ["struct", name, ← s.structText type]
  let functions ← (← s.frames.exports).mapM fun v => return ["fn", v.name, ← s.variableText v]
  return structs ++ functions

end Store

/-- The width that the first two columns of the table of exports are given. -/
def exportMargin : Nat := 32

/-- The rows of the table of exports of a file; there are none if the file could not be read. -/
def CompiledUnit.exportRows (u : CompiledUnit) : Except Fault (List (List String)) :=
  match u.module with
  | some m => m.store.exportRows
  | none => .ok []

/-- The table of the exports of a file, for a terminal of the given width. -/
def CompiledUnit.exportTable (u : CompiledUnit) (colour : Bool) (width : Nat) : Except Fault Table := do
  let table ← (← u.exportRows).foldlM Table.addRow (← Table.ofWidth 3)
  let keyword := (Escape.mk []).colour Escape.blue
  let table ← (List.range table.height).foldlM (fun t row => t.setEscape 0 row keyword) table
  let table := { table with escapes := colour }
  if 48 < width then table.setMaxWidth 2 (width - exportMargin) else return table

/-- The exports of a file as they are printed. -/
def CompiledUnit.printExports (u : CompiledUnit) (colour : Bool) (width : Nat) : Except Fault (List UInt8) := do
  (← u.exportTable colour width).print

end RainCheck
