import RainCheck.Source.File

/-!
# Locations

A `Location` is a span of a file, or nowhere.  It is written `file:line:column`, with lines and columns counted from 1.
-/

namespace RainCheck

/-- A span of a file; without a file it is nowhere. -/
structure Location where
  file : Option SourceFile
  span : Span
  deriving DecidableEq, Repr

/-- The column of a position, counted from 1 at the start of the line around it; it is a machine word with a sign. -/
def SourceFile.columnAt (f : SourceFile) (position : Int) : Int :=
  (1 + position - (f.lineAt position).start).bmod 0x10000000000000000

/-- The text `file:line:column` of a position. -/
def SourceFile.positionText (f : SourceFile) (position : Int) : String :=
  f.name ++ ":" ++ toString (f.lineAt position).number ++ ":" ++ toString (f.columnAt position)

/-- The one-line text of a problem at a span of a file. -/
def SourceFile.problemText (f : SourceFile) (s : Span) (message : String) : String :=
  f.positionText s.start ++ " " ++ message

namespace Location

/-- The text of a location; nowhere is written as a question mark. -/
def toString (l : Location) : String :=
  match l.file with
  | some f => f.positionText l.span.start
  | none => "?"

/-- The smallest location that covers two locations of one file. -/
def join (a b : Location) : Except Fault Location :=
  if a.file = b.file then .ok ⟨a.file, a.span.join b.span⟩ else .error .foreignLocation

end Location

end RainCheck
