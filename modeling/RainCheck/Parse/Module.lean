import RainCheck.Parse.Expr
import RainCheck.Tree.Module

/-!
# Reading modules

A module is a sequence of structs and functions, each of which may be exported.  `Decl.ofTokens` reads the declarations
of a module from its tokens, or finds the first token that cannot stand where it does.
-/

namespace RainCheck

namespace Parser

/-- Reads a field of a struct. -/
def fieldDecl : Parser FieldDecl := do
  let name ← expect .identifier
  let _ ← expect .colon
  let type ← type
  return ⟨name.text, name.span, type⟩

/-- Reads a struct. -/
def structDecl (exported : Bool) : Parser StructDecl := do
  let _ ← expect (.keyword .structWord)
  let name ← expect .identifier
  let _ ← expect .leftBrace
  let fields ← separated .rightBrace true fieldDecl
  return { name := name.text, span := name.span, exported, fields }

/-- Reads a function. -/
def functionDecl (exported : Bool) : Parser FunctionDecl := do
  let header ← header exported
  let body ← (grammar ((← tokensLeft) + 1)).block
  return { info := { span := header.span }, header, body }

/-- Reads a declaration. -/
def decl : Parser Decl := do
  let exported ← accept (.keyword .exportWord)
  let first ← peek
  match first.kind with
  | .keyword .fnWord => return .function (← functionDecl exported)
  | .keyword .structWord => return .struct (← structDecl exported)
  | _ => refuse first .unknownDeclaration

/-- Reads declarations up to the end of the input. -/
def decls : (bound : Nat) → Parser (List Decl)
  | 0 => fail .exhausted
  | bound + 1 => do
    if ← follows .endOfInput then return []
    let first ← decl
    let rest ← decls bound
    return first :: rest

end Parser

/-- The declarations that tokens stand for. -/
def Decl.ofTokens (tokens : List Token) : Except Stop (List Decl) :=
  (Parser.decls (tokens.length + 1)).run' { tokens }

/-- The declarations of a file. -/
def SourceFile.declarations (file : SourceFile) : Except Stop (List Decl) := do
  Decl.ofTokens (← file.tokens)

end RainCheck
