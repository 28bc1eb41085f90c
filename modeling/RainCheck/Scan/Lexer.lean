import RainCheck.Scan.Scanner
import RainCheck.Source.Span

/-!
# Lexers

A `Lexer` splits a text by rules, each a scanner with the kind of lexeme it finds.
* At each position the longest match wins, and among equally long ones the first rule.
* A lexeme found at the very end of the text is empty and moves the lexer one past the end, so there is at most one.
* `hasNext` remembers the lexeme it finds, and `next` consumes it.
-/

namespace RainCheck

/-- A class of lexemes. -/
structure Rule (κ : Type) (α : Type := Char) where
  kind : κ
  scanner : Scanner α

/-- A part of the text with its kind and the position where it starts. -/
structure Lexeme (κ : Type) (α : Type := Char) where
  kind : κ
  start : Nat
  text : List α
  deriving DecidableEq, Repr

/-- The span of a lexeme. -/
def Lexeme.span {κ α : Type} (l : Lexeme κ α) : Span := .ofLength l.start l.text.length

/-- A lexer at a position of a text. -/
structure Lexer (κ : Type) (α : Type := Char) where
  rules : List (Rule κ α)
  /-- The text from the position on. -/
  rest : List α
  index : Nat := 0
  /-- The lexer has moved past the end of the text. -/
  ended : Bool := false
  lookahead : Option (Lexeme κ α) := none

namespace Lexer

variable {κ α : Type}

/-- The number of characters that are not consumed. -/
def remaining (l : Lexer κ α) : Nat := l.rest.length

variable [DecidableEq α] [LE α] [DecidableLE α]

/-- The longest match at the start of a text and its kind: the best so far, or a longer one of the given rules. -/
def longest : List (Rule κ α) → (best : Nat × Option κ) → List α → Except Fault (Nat × Option κ)
  | [], best, _ => .ok best
  | rule :: rest, best, text => do
    let n ← rule.scanner.run text
    longest rest (if best.1 < n then (n, some rule.kind) else best) text

/-- The lexeme at the position of the lexer, if a rule matches there. -/
def find (l : Lexer κ α) : Except Fault (Option (Lexeme κ α)) :=
  if l.ended then .ok none
  else do
    let (n, kind) ← longest l.rules (0, none) l.rest
    return kind.map fun kind => ⟨kind, l.index, l.rest.take n⟩

/-- Whether there is a lexeme at the position of the lexer, and the lexer that remembers it. -/
def hasNext (l : Lexer κ α) : Except Fault (Bool × Lexer κ α) :=
  match l.lookahead with
  | some _ => .ok (true, l)
  | none => do
    let found ← l.find
    return (found.isSome, { l with lookahead := found })

/-- The lexer behind a lexeme at its position. -/
def skip (l : Lexer κ α) (lexeme : Lexeme κ α) : Lexer κ α :=
  if l.rest.isEmpty then { l with index := l.index + 1, ended := true, lookahead := none }
  else { l with index := lexeme.start + lexeme.text.length, rest := l.rest.drop lexeme.text.length, lookahead := none }

/-- Consumes the lexeme at the position of the lexer, of which there has to be one. -/
def next (l : Lexer κ α) : Except Fault (Lexeme κ α × Lexer κ α) := do
  let (_, l) ← l.hasNext
  match l.lookahead with
  | none => .error .noToken
  | some lexeme => return (lexeme, l.skip lexeme)

/-- Consumes at most `bound` lexemes. -/
def collectAtMost : (bound : Nat) → Lexer κ α → Except Fault (List (Lexeme κ α) × Lexer κ α)
  | 0, l => .ok ([], l)
  | bound + 1, l => do
    let (more, l) ← l.hasNext
    if more then
      let (lexeme, l) ← l.next
      let (rest, l) ← collectAtMost bound l
      return (lexeme :: rest, l)
    else return ([], l)

/-- Consumes lexemes until no rule matches; there is room for one at each position and one at the end. -/
def collect (l : Lexer κ α) : Except Fault (List (Lexeme κ α) × Lexer κ α) := l.collectAtMost (l.rest.length + 2)

end Lexer

end RainCheck
