import RainCheck.Proofs.Grammar

/-!
# The symbols of a tree

A module is written out as a sequence of symbols, each of which stands for one token.
* A `Word` is a token apart from its place.  A `Symbol` is a word, or a number given by its value.
* `Decl.symbols` writes a declaration in a form that leaves nothing to precedence: every operand,
  base, callee, condition, initial value, argument, field value and result stands in parentheses,
  and every statement but a nested function is ended by a semicolon.
-/

namespace RainCheck

/-! ### Words -/

/-- A token apart from the place where it stands. -/
structure Word where
  kind : TokenKind
  text : String
  deriving DecidableEq, Repr

/-- What is written by a token. -/
def Token.toWord (t : Token) : Word := ⟨t.kind, t.text⟩

/-- The token of a binary operator. -/
def BinaryOp.token : BinaryOp → TokenKind
  | .add => .plus
  | .sub => .minus
  | .mul => .star
  | .div => .slash
  | .rem => .percent
  | .shl => .shiftLeft
  | .shr => .shiftRight
  | .and => .ampersand
  | .or => .bar
  | .xor => .caret
  | .eq => .equal
  | .ne => .notEqual
  | .lt => .less
  | .le => .lessEqual
  | .gt => .greater
  | .ge => .greaterEqual

theorem BinaryOp.token_of_ofToken {kind : TokenKind} {op : BinaryOp} (h : BinaryOp.ofToken? kind = some op) :
    kind = op.token := by
  unfold BinaryOp.ofToken? at h
  split at h <;> cases h <;> rfl

/-- What stands for one token: a word, or a number with its value.  A floating point number also
tells where it stands. -/
inductive Symbol where
  | word (w : Word)
  | integer (n : Nat)
  | float (span : Span) (x : Float)

namespace Symbol

/-- A mark of punctuation or an operator. -/
def mark (kind : TokenKind) : Symbol := .word ⟨kind, (Token.marks.lookup kind).getD ""⟩

/-- A reserved word. -/
def keyword (word : Keyword) : Symbol := .word ⟨.keyword word, word.text⟩

/-- A name. -/
def name (text : String) : Symbol := .word ⟨.identifier, text⟩

/-- The kind of the token that a symbol stands for. -/
def kind : Symbol → TokenKind
  | .word w => w.kind
  | .integer _ => .integer
  | .float _ _ => .float

/-- Symbols in parentheses. -/
def parens (symbols : List Symbol) : List Symbol := mark .leftParen :: symbols ++ [mark .rightParen]

/-- Items with commas between them; all but the first one stand behind a comma. -/
def listed : (first : Bool) → List (List Symbol) → List Symbol
  | _, [] => []
  | true, item :: items => item ++ listed false items
  | false, item :: items => mark .comma :: item ++ listed false items

end Symbol

/-! ### Types and heads of functions -/

mutual

/-- The symbols of a type. -/
def TypeExpr.symbols : TypeExpr → List Symbol
  | .named _ text => [.name text]
  | .reference _ inner => .mark .ampersand :: inner.symbols
  | .function _ params returns =>
    .keyword .fnWord :: .mark .leftParen :: Symbol.listed true (TypeExpr.symbolsAll params) ++ .mark .rightParen ::
      TypeExpr.symbolsReturns returns

/-- The symbols of types one behind the other. -/
def TypeExpr.symbolsAll : List TypeExpr → List (List Symbol)
  | [] => []
  | t :: rest => t.symbols :: TypeExpr.symbolsAll rest

/-- The symbols of the type that a function returns, behind an arrow. -/
def TypeExpr.symbolsReturns : Option TypeExpr → List Symbol
  | none => []
  | some t => .mark .arrow :: t.symbols

end

/-- The symbol that makes a name mutable. -/
def mutableSymbols (mutable : Bool) : List Symbol := if mutable then [.keyword .mutWord] else []

/-- The symbols of a parameter. -/
def Param.symbols (p : Param) : List Symbol :=
  mutableSymbols p.binding.mutable ++ .name p.binding.name :: .mark .colon :: p.declared.symbols

/-- The symbols of a function up to its body. -/
def Header.symbols (h : Header) : List Symbol :=
  .keyword .fnWord :: .name h.name :: .mark .leftParen :: Symbol.listed true (h.params.map Param.symbols) ++
    .mark .rightParen :: TypeExpr.symbolsReturns h.returns

/-- The symbols of the declared type of a binding, behind a colon. -/
def declaredSymbols : Option TypeExpr → List Symbol
  | none => []
  | some t => .mark .colon :: t.symbols

/-! ### Expressions and declarations -/

/-- The symbols of an integer; the smallest one is written with its sign. -/
def integerSymbols (n : Int32) : List Symbol :=
  if n = Int32.minValue then [.mark .minus, .integer Parser.integerLimit] else [.integer n.toInt.toNat]

mutual

/-- The symbols of an expression or statement. -/
def Expr.symbols : Expr → List Symbol
  | .integer _ n => integerSymbols n
  | .float i x => [.float i.span x]
  | .boolean _ b => [.keyword (if b then .trueWord else .falseWord)]
  | .identifier _ text _ => [.name text]
  | .member _ base text _ _ => Symbol.parens base.symbols ++ [.mark .dot, .name text]
  | .call _ callee args => Symbol.parens callee.symbols ++ Symbol.parens (Symbol.listed true (Expr.symbolsAll args))
  | .builtinCall _ text args => .mark .at :: .name text :: Symbol.parens (Symbol.listed true (Expr.symbolsAll args))
  | .unary _ op operand => .mark op.token :: Symbol.parens operand.symbols
  | .binary _ op lhs rhs => Symbol.parens lhs.symbols ++ .mark op.token :: Symbol.parens rhs.symbols
  | .assignment _ target source => Symbol.parens target.symbols ++ .mark .assign :: Symbol.parens source.symbols
  | .structLiteral _ text fields =>
    .name text :: .mark .leftBrace :: Symbol.listed true (Expr.symbolsFields fields) ++ [.mark .rightBrace]
  | .letBinding _ binding declared init =>
    .keyword .letWord :: (binding.value?.elim [] fun v => mutableSymbols v.mutable ++ [.name v.name]) ++
      declaredSymbols declared ++ .mark .assign :: Symbol.parens init.symbols
  | .block b => Expr.symbolsBlock b
  | .ifElse _ cond thenBlock other =>
    .keyword .ifWord :: Symbol.parens cond.symbols ++ Expr.symbolsBlock thenBlock ++ Expr.symbolsElse other
  | .whileLoop _ cond body => .keyword .whileWord :: Symbol.parens cond.symbols ++ Expr.symbolsBlock body
  | .endlessLoop _ body => .keyword .loopWord :: Expr.symbolsBlock body
  | .leaveLoop _ => [.keyword .breakWord]
  | .nextRound _ => [.keyword .continueWord]
  | .leaveFunction _ result => .keyword .returnWord :: Expr.symbolsResult result
  | .function _ header body => header.symbols ++ Expr.symbolsBlock body

/-- The symbols of what is returned. -/
def Expr.symbolsResult : Option Expr → List Symbol
  | none => []
  | some e => Symbol.parens e.symbols

/-- The symbols of the branch behind `else`. -/
def Expr.symbolsElse : Option Expr → List Symbol
  | none => []
  | some e => .keyword .elseWord :: e.symbols

/-- The symbols of arguments. -/
def Expr.symbolsAll : List Expr → List (List Symbol)
  | [] => []
  | e :: rest => Symbol.parens e.symbols :: Expr.symbolsAll rest

/-- The symbols of the fields of a struct literal. -/
def Expr.symbolsFields : List (FieldInit Expr) → List (List Symbol)
  | [] => []
  | ⟨text, _, value⟩ :: rest => (.name text :: .mark .colon :: Symbol.parens value.symbols) :: Expr.symbolsFields rest

/-- The symbols of statements. -/
def Expr.symbolsStatements : List Expr → List Symbol
  | [] => []
  | e :: rest => e.symbols ++ (if e.isFunction then [] else [.mark .semicolon]) ++ Expr.symbolsStatements rest

/-- The symbols of the last expression of a block. -/
def Expr.symbolsTail : Option Expr → List Symbol
  | none => []
  | some e => e.symbols

/-- The symbols of a block. -/
def Expr.symbolsBlock : Block Expr → List Symbol
  | ⟨_, _, stmts, tail⟩ =>
    .mark .leftBrace :: Expr.symbolsStatements stmts ++ Expr.symbolsTail tail ++ [.mark .rightBrace]

end

/-- The symbol that exports a declaration. -/
def exportSymbols (exported : Bool) : List Symbol := if exported then [.keyword .exportWord] else []

/-- The symbols of a field of a struct. -/
def FieldDecl.symbols (f : FieldDecl) : List Symbol := .name f.name :: .mark .colon :: f.type.symbols

/-- The symbols of a declaration. -/
def Decl.symbols : Decl → List Symbol
  | .struct d =>
    exportSymbols d.exported ++ .keyword .structWord :: .name d.name :: .mark .leftBrace ::
      Symbol.listed true (d.fields.map FieldDecl.symbols) ++ [.mark .rightBrace]
  | .function f => exportSymbols f.header.exported ++ f.header.symbols ++ Expr.symbolsBlock f.body

end RainCheck
