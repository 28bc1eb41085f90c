import RainCheck.Options
import RainCheck.Source.Location
import RainCheck.Text.Blank
import RainCheck.Text.Decimal

/-!
# Expectations

The comments at the start of a file can say how it is to be compiled and which problems it has.  Such an attribute is a
line `//name:value`:
* `//error:L:A-B:message` expects a problem in line `L` at the columns from `A` to before `B`, counted from 1;
* `//feature:name` enables a feature;
* `//option:no-fold` and `//option:fail-fast` change the other options.
-/

namespace RainCheck

namespace Attribute

/-- The lines at the start of a file that are comments. -/
def lines (file : SourceFile) : List Line := file.lines.takeWhile fun l => ['/', '/'].isPrefixOf l.text

/-- The value of an attribute, if the line is one of the given name. -/
def value? (name : String) (line : Line) : Option (List Char) :=
  let start := "//".toList ++ name.toList ++ [':']
  let text := Text.trim line.text
  if start.isPrefixOf text then some (text.drop start.length) else none

/-- The part of a text in front of a character and the part behind it, if the character occurs. -/
def cut? (c : Char) (text : List Char) : Option (List Char × List Char) :=
  match text.dropWhile (· != c) with
  | _ :: behind => some (text.takeWhile (· != c), behind)
  | [] => none

end Attribute

/-- A problem that a file is expected to have. -/
structure Expectation where
  span : Span
  message : String
  deriving DecidableEq, Repr

namespace Expectation

/-- A line and columns, counted from 1, the last column excluded. -/
structure Columns where
  line : Int
  first : Int
  last : Int
  deriving DecidableEq, Repr

/-- The text of a line with columns. -/
def Columns.text (c : Columns) : String :=
  toString c.line ++ ":" ++ toString c.first ++ "-" ++ toString c.last

/-- Why an attribute states no expectation. -/
inductive Problem where
  /-- One of the three parts is missing. -/
  | malformed (contents : List Char)
  /-- The line is no number. -/
  | lineText (text : List Char) (why : Decimal.Problem)
  /-- The line is before the first one. -/
  | lineNumber (text : List Char)
  /-- The columns are not divided. -/
  | spanText (text : List Char)
  /-- A column is no number. -/
  | columnText (text column : List Char) (why : Decimal.Problem)
  /-- The first column is before the first one. -/
  | columnNumber (text : List Char)
  /-- The last column is before the first one. -/
  | reversed (text : List Char)
  /-- The file has no such line. -/
  | missingLine (columns : Columns)
  /-- The line has no such columns. -/
  | overflow (columns : Columns)
  deriving DecidableEq, Repr

/-- A part of an attribute in quotes, as it is written. -/
def Problem.cited (text : List Char) : String := "\"" ++ String.ofList text ++ "\""

/-- The message about an attribute that states no expectation. -/
def Problem.message : Problem → String
  | .malformed contents => "malformed expected error " ++ cited contents ++ ", should be e.g. \"//error:X:Y-Z:msg\""
  | .lineText text why => "invalid line " ++ cited text ++ " (" ++ why.message text ++ ")"
  | .lineNumber text => "invalid line " ++ cited text ++ " (lines numbered from 1)"
  | .spanText text => "invalid span " ++ cited text ++ " (malformed, should be X-Y)"
  | .columnText text column why => "invalid span " ++ cited text ++ " (" ++ why.message column ++ ")"
  | .columnNumber text => "invalid span " ++ cited text ++ " (columns numbered from 1)"
  | .reversed text => "invalid span " ++ cited text ++ " (ends before it starts)"
  | .missingLine columns => "invalid span \"" ++ columns.text ++ "\" (non-existent line)"
  | .overflow columns => "invalid span \"" ++ columns.text ++ "\" (overflows line)"

/-- The first and the last column of a text `first-last`. -/
def readColumns (text : List Char) : Except Problem (Int × Int) := do
  match Attribute.cut? '-' text with
  | none => throw (.spanText text)
  | some (first, last) =>
    let start ← (Decimal.read first).mapError (.columnText text first)
    if start ≤ 0 then throw (.columnNumber text)
    let stop ← (Decimal.read last).mapError (.columnText text last)
    if stop < start then throw (.reversed text)
    return (start, stop)

/-- The line, the columns and the message of a text `line:first-last:message`. -/
def readValue (contents : List Char) : Except Problem (Columns × List Char) := do
  match Attribute.cut? ':' contents with
  | none => throw (.malformed contents)
  | some (lineText, rest) =>
    match Attribute.cut? ':' rest with
    | none => throw (.malformed contents)
    | some (columns, message) =>
      let line ← (Decimal.read lineText).mapError (.lineText lineText)
      if line ≤ 0 then throw (.lineNumber lineText)
      let (first, last) ← readColumns columns
      return (⟨line, first, last⟩, message)

/-- The span of columns of one of the given lines. -/
def spanOf (c : Columns) (lines : List Line) : Except Problem Span :=
  match lines[c.line.toNat - 1]? with
  | none => .error (.missingLine c)
  | some line =>
    let start := c.first.toNat - 1
    let stop := c.last.toNat - 1
    if line.length ≤ start || line.length < stop then .error (.overflow c)
    else .ok (.ofLength (line.start + start) (stop - start))

/-- The expectation stated by the value of an attribute of a file. -/
def ofValue (file : SourceFile) (contents : List Char) : Except Problem Expectation := do
  let (columns, message) ← readValue contents
  return ⟨← spanOf columns file.lines, String.ofList message⟩

/-- What the attributes of a file expect, and what is wrong with those that expect nothing. -/
def ofFile (file : SourceFile) : List Expectation × List Problem :=
  ((Attribute.lines file).filterMap (Attribute.value? "error")).foldr
    (fun contents (found, problems) =>
      match ofValue file contents with
      | .ok e => (e :: found, problems)
      | .error p => (found, p :: problems))
    ([], [])

/-- The line of text that describes an expectation. -/
def text (file : SourceFile) (e : Expectation) : String :=
  let line := file.lineAt e.span.start
  let offset := e.span.start - line.start
  let length := min (line.length - offset) e.span.length
  file.name ++ ":" ++ toString line.number ++ ":" ++ toString (1 + offset) ++ "-" ++ toString (1 + offset + length) ++
    " " ++ e.message ++ "\n"

end Expectation

namespace Options

/-- The options with what a line of a file asks for, or what is wrong with the line. -/
def applyLine (o : Options) (line : Line) : Except String Options :=
  let problem (message : String) := "line " ++ toString line.number ++ ": " ++ message
  match Attribute.value? "feature" line, Attribute.value? "option" line with
  | some name, _ =>
    match Feature.ofName? (String.ofList name) with
    | some f => .ok (o.withFeatures [f])
    | none => .error (problem (Feature.unknownMessage (String.ofList name)))
  | none, some name =>
    match String.ofList name with
    | "no-fold" => .ok { o with constantFolding := false }
    | "fail-fast" => .ok { o with continueOnError := false }
    | name => .error (problem ("unknown option \"" ++ name ++ "\""))
  | none, none => .ok o

/-- The options that the attributes of a file ask for, and what is wrong with them. -/
def ofFile (file : SourceFile) : Options × List String :=
  (Attribute.lines file).foldl
    (fun (o, problems) line =>
      match o.applyLine line with
      | .ok o => (o, problems)
      | .error p => (o, problems ++ [p]))
    ({}, [])

end Options

end RainCheck
