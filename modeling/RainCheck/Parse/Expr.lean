import RainCheck.Number.Literal
import RainCheck.Parse.Type
import RainCheck.Parse.Operators

/-!
# Reading expressions

The grammar of expressions, statements and nested functions.  The parsers below are not recursive: where the grammar
refers back to itself they use a `Grammar` for what is nested one level deeper, and always behind a consumed token.
`grammar` ties the knot for a given number of levels.

A condition is read with `noStruct`: a name in front of a brace is then not the start of a struct literal, until a
bracket opens.
-/

namespace RainCheck.Parser

/-- Parsers for what is nested one level deeper. -/
structure Grammar where
  expr : (noStruct : Bool) → Parser Expr
  unary : (noStruct : Bool) → Parser Expr
  primary : (noStruct : Bool) → Parser Expr
  block : Parser (Block Expr)

/-! ### Literals -/

/-- The first number above the 32-bit integers; its negation is the smallest one of them. -/
def integerLimit : Nat := 0x80000000

/-- Reads an integer, which is at most the largest 32-bit integer. -/
def integerLiteral : Parser Expr := do
  let t ← advance
  match Literal.int32? t.text.toList with
  | some n => return .integer { span := t.span } n
  | none => refuse t .integerOutOfRange

/-- Reads a floating point number, rounded to the nearest double. -/
def floatLiteral : Parser Expr := do
  let t ← advance
  match Literal.float? t.text.toList with
  | some x => return .float { span := t.span } x
  | none => refuse t .invalidFloat

/--
Reads the smallest 32-bit integer, a minus and a number that alone would be too large.  A member access or a call behind
the number binds tighter than the minus.
-/
def smallestInteger? : Parser (Option Expr) := do
  let sign ← peek
  let number ← peekAt 1
  if number.kind ≠ .integer then return none
  let behind ← peekAt 2
  if behind.kind = .dot || behind.kind = .leftParen then return none
  if Literal.integer? number.text.toList ≠ some (integerLimit : Int) then return none
  let _ ← advance
  let _ ← advance
  return some (.integer { span := ← spanFrom sign } Int32.minValue)

/-! ### Statements -/

/-- Reads the declared type of a binding, if a colon follows. -/
def declaredType : Parser (Option TypeExpr) := do
  if ← accept .colon then return some (← type) else return none

/-- Reads a binding, without the semicolon that has to follow it. -/
def letBinding (g : Grammar) : Parser Expr := do
  let first ← expect (.keyword .letWord)
  let mutable ← accept (.keyword .mutWord)
  let name ← expect .identifier
  let declared ← declaredType
  let _ ← expect .assign
  let init ← g.expr false
  let behind ← peek
  if behind.kind ≠ .semicolon then refuse behind .expectedSemicolon
  let binding : Variable := { name := name.text, kind := .bound, mutable, span := name.span }
  return .letBinding { span := ← spanFrom first } (.owned binding) declared init

/-- Reads a parameter. -/
def param : Parser Param := do
  let mutable ← accept (.keyword .mutWord)
  let name ← expect .identifier
  let _ ← expect .colon
  let declared ← type
  return ⟨{ name := name.text, kind := .argument, mutable, span := name.span }, declared⟩

/-- Reads a function up to its body. -/
def header (exported : Bool) : Parser Header := do
  let _ ← expect (.keyword .fnWord)
  let name ← expect .identifier
  let _ ← expect .leftParen
  let params ← separated .rightParen false param
  let returns ← returnType type
  return { name := name.text, span := name.span, exported, params, returns }

/-- Reads a nested function. -/
def nestedFunction (g : Grammar) : Parser Expr := do
  let header ← header false
  let body ← g.block
  return .function { span := header.span } header body

/-- Reads a statement, without a semicolon behind it. -/
def statement (g : Grammar) : Parser Expr := do
  match (← peek).kind with
  | .keyword .letWord => letBinding g
  | .keyword .ifWord => g.primary false
  | .keyword .whileWord => g.primary false
  | .keyword .loopWord => g.primary false
  | .leftBrace => g.primary false
  | .keyword .fnWord => nestedFunction g
  | _ => g.expr false

/--
Reads the statements of a block and its last expression, up to and with the closing brace.  A nested function and an
expression that ends with a block need no semicolon; any other statement without one is the last expression.
-/
def statements (g : Grammar) : (bound : Nat) → Parser (List Expr × Option Expr)
  | 0 => fail .exhausted
  | bound + 1 => do
    if ← accept .rightBrace then return ([], none)
    let stmt ← statement g
    let ended ← accept .semicolon
    if ended || stmt.isFunction then
      let (stmts, tail) ← statements g bound
      return (stmt :: stmts, tail)
    if ← accept .rightBrace then return ([], some stmt)
    if stmt.isBlockLike then
      let (stmts, tail) ← statements g bound
      return (stmt :: stmts, tail)
    refuse (← peek) .expectedSemicolon

/-- Reads a block. -/
def block (g : Grammar) : Parser (Block Expr) := do
  let first ← expect .leftBrace
  let (stmts, tail) ← statements g ((← tokensLeft) + 1)
  return { info := { span := ← spanFrom first }, frame := none, stmts, tail }

/-! ### Primary expressions -/

/-- Reads arguments in parentheses. -/
def arguments (g : Grammar) : Parser (List Expr) := do
  let _ ← expect .leftParen
  separated .rightParen false (g.expr false)

/-- Reads a field of a struct literal. -/
def fieldInit (g : Grammar) : Parser (FieldInit Expr) := do
  let name ← expect .identifier
  let _ ← expect .colon
  let value ← g.expr false
  return ⟨name.text, name.span, value⟩

/-- Reads a name, and a struct literal if a brace follows and one is allowed. -/
def named (g : Grammar) (noStruct : Bool) : Parser Expr := do
  let name ← advance
  let literal ← follows .leftBrace
  if literal && !noStruct then
    let _ ← advance
    let fields ← separated .rightBrace true (fieldInit g)
    return .structLiteral { span := ← spanFrom name } name.text fields
  else return .identifier { span := name.span } name.text none

/-- Reads an expression in parentheses, which leave no trace in the tree. -/
def parenthesised (g : Grammar) : Parser Expr := do
  let _ ← advance
  let e ← g.expr false
  let _ ← expect .rightParen
  return e

/-- Reads the branch behind `else`: another condition or a block. -/
def elseBranch (g : Grammar) : Parser (Option Expr) := do
  if ← accept (.keyword .elseWord) then
    if ← follows (.keyword .ifWord) then return some (← g.primary false)
    else return some (.block (← g.block))
  else return none

/-- Reads a conditional. -/
def ifElse (g : Grammar) : Parser Expr := do
  let first ← advance
  let cond ← g.expr true
  let thenBlock ← g.block
  let elseBranch ← elseBranch g
  return .ifElse { span := ← spanFrom first } cond thenBlock elseBranch

/-- Reads a loop with a condition. -/
def whileLoop (g : Grammar) : Parser Expr := do
  let first ← advance
  let cond ← g.expr true
  let body ← g.block
  return .whileLoop { span := ← spanFrom first } cond body

/-- Reads a loop without a condition. -/
def endlessLoop (g : Grammar) : Parser Expr := do
  let first ← advance
  let body ← g.block
  return .endlessLoop { span := ← spanFrom first } body

/-- Reads the result behind `return`, which may be left out in front of a semicolon or a closing brace. -/
def returned (g : Grammar) : Parser (Option Expr) := do
  let behind ← peek
  if behind.kind = .semicolon || behind.kind = .rightBrace then return none else return some (← g.expr false)

/-- Reads a return. -/
def leaveFunction (g : Grammar) : Parser Expr := do
  let first ← advance
  let result ← returned g
  return .leaveFunction { span := ← spanFrom first } result

/-- Reads the call of a builtin. -/
def builtinCall (g : Grammar) : Parser Expr := do
  let first ← advance
  let name ← expect .identifier
  let args ← arguments g
  return .builtinCall { span := ← spanFrom first } name.text args

/-- Reads an expression that is no operation, member access or call. -/
def primary (g : Grammar) (noStruct : Bool) : Parser Expr := do
  let first ← peek
  match first.kind with
  | .integer => integerLiteral
  | .float => floatLiteral
  | .keyword .trueWord =>
    let _ ← advance
    return .boolean { span := first.span } true
  | .keyword .falseWord =>
    let _ ← advance
    return .boolean { span := first.span } false
  | .identifier => named g noStruct
  | .leftParen => parenthesised g
  | .leftBrace => return .block (← block g)
  | .keyword .ifWord => ifElse g
  | .keyword .whileWord => whileLoop g
  | .keyword .loopWord => endlessLoop g
  | .keyword .breakWord =>
    let _ ← advance
    return .leaveLoop { span := first.span }
  | .keyword .continueWord =>
    let _ ← advance
    return .nextRound { span := first.span }
  | .keyword .returnWord => leaveFunction g
  | .at => builtinCall g
  | _ => refuse first .unexpectedToken

/-! ### Operations -/

/-- Reads the member accesses and calls behind an expression that starts with the token `first`. -/
def accesses (g : Grammar) (first : Token) : (bound : Nat) → Expr → Parser Expr
  | 0, _ => fail .exhausted
  | bound + 1, e => do
    if ← accept .dot then
      let name ← expect .identifier
      accesses g first bound (.member { span := e.span.join name.span } e name.text name.span 0)
    else if ← follows .leftParen then
      let args ← arguments g
      accesses g first bound (.call { span := ← spanFrom first } e args)
    else return e

/-- Reads a primary expression with the member accesses and calls behind it. -/
def accessed (g : Grammar) (noStruct : Bool) : Parser Expr := do
  let first ← peek
  let e ← primary g noStruct
  accesses g first ((← tokensLeft) + 1) e

/-- Reads the operand of a unary operator, whose token is next. -/
def unaryOperation (g : Grammar) (noStruct : Bool) (op : UnaryOp) : Parser Expr := do
  let first ← advance
  let operand ← g.unary noStruct
  return .unary { span := ← spanFrom first } op operand

/-- Reads an operand of binary operators. -/
def unary (g : Grammar) (noStruct : Bool) : Parser Expr := do
  match (← peek).kind with
  | .minus =>
    match ← smallestInteger? with
    | some e => return e
    | none => unaryOperation g noStruct .negate
  | .bang => unaryOperation g noStruct .invert
  | .ampersand => unaryOperation g noStruct .address
  | _ => accessed g noStruct

/-- Reads the binary operators that follow, each with its right operand. -/
def operands (g : Grammar) (noStruct : Bool) : (bound : Nat) → Parser (List (BinaryOp × Expr))
  | 0 => fail .exhausted
  | bound + 1 => do
    match BinaryOp.ofToken? (← peek).kind with
    | none => return []
    | some op =>
      let _ ← advance
      let operand ← unary g noStruct
      let rest ← operands g noStruct bound
      return (op, operand) :: rest

/-- Reads operands with binary operators between them. -/
def binary (g : Grammar) (noStruct : Bool) : Parser Expr := do
  let first ← unary g noStruct
  let rest ← operands g noStruct ((← tokensLeft) + 1)
  return Expr.ofOperands first rest

/-- Reads an expression: operands with binary operators between them, and what is assigned to it, if anything is. -/
def expr (g : Grammar) (noStruct : Bool) : Parser Expr := do
  let target ← binary g noStruct
  if ← accept .assign then
    let source ← g.expr noStruct
    return .assignment { span := target.span.join source.span } target source
  else return target

/-- The grammar for expressions that are nested at most `depth` levels deep. -/
def grammar : (depth : Nat) → Grammar
  | 0 =>
    { expr := fun _ => fail .exhausted
      unary := fun _ => fail .exhausted
      primary := fun _ => fail .exhausted
      block := fail .exhausted }
  | depth + 1 =>
    { expr := expr (grammar depth)
      unary := unary (grammar depth)
      primary := primary (grammar depth)
      block := block (grammar depth) }

end RainCheck.Parser
