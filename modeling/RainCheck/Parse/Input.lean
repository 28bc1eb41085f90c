import RainCheck.Token

/-!
# Reading tokens

A `Parser` reads a list of tokens from the front.  It ends with the first problem it meets.
* The list is meant to end with the end of the input, which no parser consumes; reading on behind it is a fault.
* `spanFrom` gives the span from a token to the last consumed one.
-/

namespace RainCheck

/-- The tokens that are not consumed yet, and the span of the last one that is. -/
structure Input where
  tokens : List Token
  last : Span := default

/-- Computations that read tokens. -/
abbrev Parser (α : Type) := StateT Input (Except Stop) α

namespace Parser

variable {α : Type}

/-- Ends with a fault. -/
def fail (f : Fault) : Parser α := throw (.fault f)

/-- Ends with a problem at a token. -/
def refuse (t : Token) (cause : Cause) : Parser α := throw (.refused ⟨t.span, cause⟩)

/-- The token `n` places ahead. -/
def peekAt (n : Nat) : Parser Token := do
  match (← get).tokens[n]? with
  | some t => return t
  | none => fail .outOfRange

/-- The next token. -/
def peek : Parser Token := peekAt 0

/-- Consumes the next token. -/
def advance : Parser Token := do
  match (← get).tokens with
  | t :: rest =>
    set { tokens := rest, last := t.span : Input }
    return t
  | [] => fail .outOfRange

/-- Whether the next token has a given kind. -/
def follows (kind : TokenKind) : Parser Bool := return (← peek).kind = kind

/-- Consumes the next token if it has a given kind, and says whether it had. -/
def accept (kind : TokenKind) : Parser Bool := do
  if ← follows kind then
    let _ ← advance
    return true
  else return false

/-- Consumes the next token, which has to have a given kind. -/
def expect (kind : TokenKind) : Parser Token := do
  let t ← peek
  if t.kind = kind then advance else refuse t .unexpectedToken

/-- The span from a token to the last consumed one, which does not stand in front of it. -/
def spanFrom (first : Token) : Parser Span := do
  match Span.between first.span.start (← get).last.stop with
  | .ok span => return span
  | .error f => fail f

/-- The number of tokens that are not consumed, which bounds the rounds of every loop that consumes in each round. -/
def tokensLeft : Parser Nat := return (← get).tokens.length

/--
Items separated by commas up to a closing token, which is consumed.  With `trailing` a comma may also stand behind the
last item.  `bound` limits the number of rounds.
-/
def itemsUntil (close : TokenKind) (trailing : Bool) (item : Parser α) :
    (bound : Nat) → (first : Bool) → Parser (List α)
  | 0, _ => fail .exhausted
  | bound + 1, first => do
    if ← accept close then return []
    if !first then
      let _ ← expect .comma
      if trailing then
        if ← accept close then return []
    let a ← item
    let rest ← itemsUntil close trailing item bound false
    return a :: rest

/-- Items separated by commas up to a closing token, which is consumed. -/
def separated (close : TokenKind) (trailing : Bool) (item : Parser α) : Parser (List α) := do
  itemsUntil close trailing item ((← tokensLeft) + 1) true

end Parser

end RainCheck
