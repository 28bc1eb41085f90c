import RainCheck.Tree.Expr

/-!
# Declarations

The declarations of a module: structs with their fields, and functions.  The span of a declaration is that of the name
it declares, which also identifies it.
-/

namespace RainCheck

/-- A field with its declared type. -/
structure FieldDecl where
  name : String
  span : Span
  type : TypeExpr

/-- The declaration of a struct. -/
structure StructDecl where
  name : String
  span : Span
  exported : Bool
  fields : List FieldDecl

/-- The declaration of a function, with what is known about it. -/
structure FunctionDecl where
  info : Info
  header : Header
  body : Block Expr

/-- A declaration of a module. -/
inductive Decl where
  | struct (decl : StructDecl)
  | function (decl : FunctionDecl)

/-- Where the name of a declaration stands. -/
def Decl.span : Decl → Span
  | .struct d => d.span
  | .function d => d.header.span

end RainCheck
