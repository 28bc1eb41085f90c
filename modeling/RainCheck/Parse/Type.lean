import RainCheck.Parse.Input
import RainCheck.Tree.TypeExpr

/-!
# Reading types

`type ::= name | & type | fn ( types ) [-> type]`, with the types separated by commas.
-/

namespace RainCheck.Parser

/-- The type behind an arrow, if an arrow follows. -/
def returnType (type : Parser TypeExpr) : Parser (Option TypeExpr) := do
  if ← accept .arrow then return some (← type) else return none

/-- Reads a type that is nested at most `depth` levels deep. -/
def typeWithin : (depth : Nat) → Parser TypeExpr
  | 0 => fail .exhausted
  | depth + 1 => do
    let first ← peek
    match first.kind with
    | .identifier =>
      let _ ← advance
      return .named first.span first.text
    | .ampersand =>
      let _ ← advance
      let inner ← typeWithin depth
      return .reference (← spanFrom first) inner
    | .keyword .fnWord =>
      let _ ← advance
      let _ ← expect .leftParen
      let params ← separated .rightParen false (typeWithin depth)
      let returns ← returnType (typeWithin depth)
      return .function (← spanFrom first) params returns
    | _ => refuse first .unknownType

/-- Reads a type. -/
def type : Parser TypeExpr := do
  typeWithin ((← tokensLeft) + 1)

end RainCheck.Parser
