import RainCheck.Source.Span

/-!
# Type expressions

Types as they are written: a name, a reference to a type, or the type of a function.
-/

namespace RainCheck

/-- A type as it is written. -/
inductive TypeExpr where
  | named (span : Span) (name : String)
  | reference (span : Span) (inner : TypeExpr)
  | function (span : Span) (params : List TypeExpr) (returns : Option TypeExpr)

/-- Where a type is written. -/
def TypeExpr.span : TypeExpr → Span
  | .named span _ => span
  | .reference span _ => span
  | .function span _ _ => span

/-- The types that the declaration of a function gives: those of its parameters and the one it returns. -/
structure Prototype where
  params : List TypeExpr
  returns : Option TypeExpr

end RainCheck
