/-!
# Terminal escapes

An `Escape` is a list of display attributes for the text that follows it.
-/

namespace RainCheck

/-- Display attributes, by the numbers that terminals know them by; these are machine words. -/
structure Escape where
  codes : List UInt64 := []
  deriving DecidableEq, Repr

namespace Escape

/-- The colour of highlighted text. -/
def red : UInt64 := 1

/-- The colour of keywords. -/
def blue : UInt64 := 4

/-- No attribute at all. -/
def reset : Escape := ⟨[0]⟩

/-- Bold text. -/
def boldText : Escape := ⟨[1]⟩

/-- Adds a colour. -/
def colour (e : Escape) (n : UInt64) : Escape := ⟨e.codes ++ [30 + n]⟩

/-- Adds bold text. -/
def bold (e : Escape) : Escape := ⟨e.codes ++ [1]⟩

/-- The characters of an escape. -/
def text (e : Escape) : String := "\x1b[" ++ ";".intercalate (e.codes.map fun code => toString code.toNat) ++ "m"

/-- A text between an escape and the end of its effect. -/
def wrap (e : Escape) (text : String) : String := e.text ++ text ++ reset.text

end Escape

end RainCheck
