import RainCheck.Source.Span
import RainCheck.Text.Utf8

/-!
# Source files and their lines

A `SourceFile` is a name and a sequence of code points.  There are two views of its lines:
* `SourceFile.lines` splits the text at its newlines; what follows the last newline is a line only if it is not empty;
* `SourceFile.lineAt` finds the line around a position, which outside of the text is whatever follows the last newline.
-/

namespace RainCheck

/-- A named text. -/
structure SourceFile where
  name : String
  contents : List Char
  deriving DecidableEq, Repr

/-- A line of a text, without its newline, and the position where it starts; lines are numbered from 1. -/
structure Line where
  number : Nat
  start : Nat
  text : List Char
  deriving DecidableEq, Repr

/-- The number of code points of a line. -/
def Line.length (l : Line) : Nat := l.text.length

/-- The text of a line. -/
def Line.toString (l : Line) : String := String.ofList l.text

namespace SourceFile

/-- Reads a file from its bytes. -/
def ofBytes (name : String) (bytes : List UInt8) : SourceFile := ⟨name, Utf8.decode bytes⟩

/-- The number of code points of a file. -/
def length (f : SourceFile) : Nat := f.contents.length

/-- The text under a span, which has to lie inside the file. -/
def text (f : SourceFile) (s : Span) : Except Fault String :=
  if 0 ≤ s.start ∧ s.stop ≤ f.length then
    .ok (String.ofList ((f.contents.drop s.start.toNat).take s.length))
  else .error .outOfRange

/-- The line that starts at position `start` with the rest of the text. -/
def lineFrom (number start : Nat) (rest : List Char) : Line :=
  { number, start, text := rest.takeWhile (· != '\n') }

/-- The lines of the text `rest`, whose current line began at `start` with the characters `done` (last first). -/
def linesFrom (number start : Nat) (done : List Char) : List Char → List Line
  | [] => if done.isEmpty then [] else [{ number, start, text := done.reverse }]
  | c :: rest =>
    if c == '\n' then
      { number, start, text := done.reverse } :: linesFrom (number + 1) (start + done.length + 1) [] rest
    else linesFrom number start (c :: done) rest

/-- The lines of a file, in order. -/
def lines (f : SourceFile) : List Line := linesFrom 1 0 [] f.contents

/--
Walks along the text to a position.  `line` is the text from the start of the current line on, `ahead` the number of
positions still to go.
-/
def lineAtFrom (number start position : Nat) (line : List Char) : Nat → List Char → Line
  | 0, _ :: _ => lineFrom number start line
  | _, [] => lineFrom number start line
  | ahead + 1, c :: rest =>
    if c == '\n' then lineAtFrom (number + 1) (position + 1) (position + 1) rest ahead rest
    else lineAtFrom number start (position + 1) line ahead rest

/-- The line around a position; outside of the text it is the text after the last newline. -/
def lineAt (f : SourceFile) (position : Int) : Line :=
  let steps := if position < 0 then f.length else position.toNat
  lineAtFrom 1 0 0 f.contents steps f.contents

end SourceFile

end RainCheck
