import RainCheck.Parse.Module

/-!
# The grammar

Which tokens stand for which tree, without the parser: `Derives` relates a phrase of the language to the tokens it is
written with.  The levels of the grammar are those of the parser.
* A node made from several tokens stands where they do (`Covers`).
* Items between commas are given as pieces, each an item with its tokens (`Enumerates`).
* Trees come out of the grammar without any annotation.
-/

namespace RainCheck

open RainCheck.Parser (integerLimit)

/-- The span from the first to the last one of some tokens. -/
def Covers (used : List Token) (span : Span) : Prop :=
  ∃ first last, used.head? = some first ∧ used.getLast? = some last ∧ span.start = first.span.start ∧
    span.stop = last.span.stop

/-- Tokens of items with commas between them, up to and with a closing token. -/
inductive Enumerates (close : TokenKind) (trailing : Bool) :
    (first : Bool) → List (List Token) → List Token → Prop where
  | close {first : Bool} {t : Token} (ht : t.kind = close) : Enumerates close trailing first [] [t]
  | trailing {comma t : Token} (htrailing : trailing = true) (hcomma : comma.kind = .comma) (ht : t.kind = close) :
      Enumerates close trailing false [] [comma, t]
  | first {item rest : List Token} {items : List (List Token)} (hrest : Enumerates close trailing false items rest) :
      Enumerates close trailing true (item :: items) (item ++ rest)
  | next {comma : Token} {item rest : List Token} {items : List (List Token)} (hcomma : comma.kind = .comma)
      (hrest : Enumerates close trailing false items rest) :
      Enumerates close trailing false (item :: items) (comma :: item ++ rest)

/-! ### Types and heads of functions -/

/-- The phrases of types. -/
inductive TypePhrase where
  | type (t : TypeExpr)
  /-- What stands behind the parameters of a function. -/
  | returns (t : Option TypeExpr)

/-- The tokens that types are written with. -/
inductive DerivesType : TypePhrase → List Token → Prop where
  | named {t : Token} (ht : t.kind = .identifier) : DerivesType (.type (.named t.span t.text)) [t]
  | reference {t : Token} {inner : TypeExpr} {used : List Token} {span : Span} (ht : t.kind = .ampersand)
      (hinner : DerivesType (.type inner) used) (hspan : Covers (t :: used) span) :
      DerivesType (.type (.reference span inner)) (t :: used)
  | function {word paren : Token} {pieces : List (List Token × TypeExpr)} {used behind : List Token}
      {returns : Option TypeExpr} {span : Span} (hword : word.kind = .keyword .fnWord)
      (hparen : paren.kind = .leftParen) (hlist : Enumerates .rightParen false true (pieces.map (·.1)) used)
      (hpieces : ∀ p ∈ pieces, DerivesType (.type p.2) p.1) (hreturns : DerivesType (.returns returns) behind)
      (hspan : Covers (word :: paren :: used ++ behind) span) :
      DerivesType (.type (.function span (pieces.map (·.2)) returns)) (word :: paren :: used ++ behind)
  | nothing : DerivesType (.returns none) []
  | result {arrow : Token} {t : TypeExpr} {used : List Token} (harrow : arrow.kind = .arrow)
      (ht : DerivesType (.type t) used) : DerivesType (.returns (some t)) (arrow :: used)

/-- The tokens of an optional `mut`. -/
inductive DerivesMutable : Bool → List Token → Prop where
  | no : DerivesMutable false []
  | yes {t : Token} (ht : t.kind = .keyword .mutWord) : DerivesMutable true [t]

/-- The tokens that a parameter is written with. -/
inductive DerivesParam : Param → List Token → Prop where
  | param {mutable : Bool} {mark : List Token} {name colon : Token} {declared : TypeExpr} {used : List Token}
      (hmark : DerivesMutable mutable mark) (hname : name.kind = .identifier) (hcolon : colon.kind = .colon)
      (hdeclared : DerivesType (.type declared) used) :
      DerivesParam ⟨{ name := name.text, kind := .argument, mutable, span := name.span }, declared⟩
        (mark ++ name :: colon :: used)

/-- The tokens that the head of a function is written with. -/
inductive DerivesHeader (exported : Bool) : Header → List Token → Prop where
  | header {word name paren : Token} {pieces : List (List Token × Param)} {used behind : List Token}
      {returns : Option TypeExpr} (hword : word.kind = .keyword .fnWord) (hname : name.kind = .identifier)
      (hparen : paren.kind = .leftParen) (hlist : Enumerates .rightParen false true (pieces.map (·.1)) used)
      (hpieces : ∀ p ∈ pieces, DerivesParam p.2 p.1) (hreturns : DerivesType (.returns returns) behind) :
      DerivesHeader exported ⟨name.text, name.span, exported, pieces.map (·.2), returns⟩
        (word :: name :: paren :: used ++ behind)

/-- The tokens of the declared type of a binding, with the colon in front of it. -/
inductive DerivesDeclared : Option TypeExpr → List Token → Prop where
  | nothing : DerivesDeclared none []
  | type {colon : Token} {t : TypeExpr} {used : List Token} (hcolon : colon.kind = .colon)
      (ht : DerivesType (.type t) used) : DerivesDeclared (some t) (colon :: used)

/-! ### Expressions -/

/-- The phrases of expressions and statements.  With `noStruct` a name in front of a brace starts no literal. -/
inductive Phrase where
  | primary (noStruct : Bool) (e : Expr)
  | fieldInit (field : FieldInit Expr)
  | accessed (noStruct : Bool) (e : Expr)
  | operand (noStruct : Bool) (e : Expr)
  | operands (noStruct : Bool) (rest : List (BinaryOp × Expr))
  | operation (noStruct : Bool) (e : Expr)
  | expr (noStruct : Bool) (e : Expr)
  | elseBranch (e : Option Expr)
  | statement (e : Expr)
  /-- The statements and the last expression of a block, with the closing brace. -/
  | statements (stmts : List Expr) (tail : Option Expr)
  | block (b : Block Expr)

/-- The token that a unary operator is written with. -/
def UnaryOp.token : UnaryOp → TokenKind
  | .negate => .minus
  | .invert => .bang
  | .address => .ampersand

/-- Whether an expression is a binding. -/
def Expr.isLet : Expr → Bool
  | .letBinding _ _ _ _ => true
  | _ => false

/-- Whether an expression is more than a statement: it declares no name. -/
def Expr.isValue (e : Expr) : Bool := !e.isLet && !e.isFunction

/-- The tokens that expressions and statements are written with. -/
inductive Derives : Phrase → List Token → Prop where
  | integer {noStruct : Bool} {t : Token} {v : Int32} (ht : t.kind = .integer)
      (hv : Literal.int32? t.text.toList = some v) : Derives (.primary noStruct (.integer { span := t.span } v)) [t]
  | float {noStruct : Bool} {t : Token} {x : Float} (ht : t.kind = .float)
      (hx : Literal.float? t.text.toList = some x) :
      Derives (.primary noStruct (.float { span := t.span } x)) [t]
  | boolean {noStruct : Bool} {t : Token} {b : Bool}
      (ht : t.kind = .keyword (if b then .trueWord else .falseWord)) :
      Derives (.primary noStruct (.boolean { span := t.span } b)) [t]
  | identifier {noStruct : Bool} {t : Token} (ht : t.kind = .identifier) :
      Derives (.primary noStruct (.identifier { span := t.span } t.text none)) [t]
  | structLiteral {name brace : Token} {pieces : List (List Token × FieldInit Expr)} {used : List Token} {span : Span}
      (hname : name.kind = .identifier) (hbrace : brace.kind = .leftBrace)
      (hlist : Enumerates .rightBrace true true (pieces.map (·.1)) used)
      (hpieces : ∀ p ∈ pieces, Derives (.fieldInit p.2) p.1) (hspan : Covers (name :: brace :: used) span) :
      Derives (.primary false (.structLiteral { span } name.text (pieces.map (·.2)))) (name :: brace :: used)
  | fieldInit {name colon : Token} {value : Expr} {used : List Token} (hname : name.kind = .identifier)
      (hcolon : colon.kind = .colon) (hvalue : Derives (.expr false value) used) :
      Derives (.fieldInit ⟨name.text, name.span, value⟩) (name :: colon :: used)
  | parenthesised {noStruct : Bool} {left right : Token} {e : Expr} {used : List Token}
      (hleft : left.kind = .leftParen) (he : Derives (.expr false e) used) (hright : right.kind = .rightParen) :
      Derives (.primary noStruct e) (left :: used ++ [right])
  | blockExpr {noStruct : Bool} {b : Block Expr} {used : List Token} (hb : Derives (.block b) used) :
      Derives (.primary noStruct (.block b)) used
  | ifElse {noStruct : Bool} {word : Token} {cond : Expr} {thenBlock : Block Expr} {other : Option Expr}
      {u₁ u₂ u₃ : List Token} {span : Span} (hword : word.kind = .keyword .ifWord)
      (hcond : Derives (.expr true cond) u₁) (hthen : Derives (.block thenBlock) u₂)
      (hother : Derives (.elseBranch other) u₃) (hspan : Covers (word :: u₁ ++ u₂ ++ u₃) span) :
      Derives (.primary noStruct (.ifElse { span } cond thenBlock other)) (word :: u₁ ++ u₂ ++ u₃)
  | whileLoop {noStruct : Bool} {word : Token} {cond : Expr} {body : Block Expr} {u₁ u₂ : List Token} {span : Span}
      (hword : word.kind = .keyword .whileWord) (hcond : Derives (.expr true cond) u₁)
      (hbody : Derives (.block body) u₂) (hspan : Covers (word :: u₁ ++ u₂) span) :
      Derives (.primary noStruct (.whileLoop { span } cond body)) (word :: u₁ ++ u₂)
  | endlessLoop {noStruct : Bool} {word : Token} {body : Block Expr} {used : List Token} {span : Span}
      (hword : word.kind = .keyword .loopWord) (hbody : Derives (.block body) used)
      (hspan : Covers (word :: used) span) :
      Derives (.primary noStruct (.endlessLoop { span } body)) (word :: used)
  | leaveLoop {noStruct : Bool} {t : Token} (ht : t.kind = .keyword .breakWord) :
      Derives (.primary noStruct (.leaveLoop { span := t.span })) [t]
  | nextRound {noStruct : Bool} {t : Token} (ht : t.kind = .keyword .continueWord) :
      Derives (.primary noStruct (.nextRound { span := t.span })) [t]
  | leaveFunction {noStruct : Bool} {word : Token} {span : Span} (hword : word.kind = .keyword .returnWord)
      (hspan : Covers [word] span) : Derives (.primary noStruct (.leaveFunction { span } none)) [word]
  | leaveWith {noStruct : Bool} {word : Token} {e : Expr} {used : List Token} {span : Span}
      (hword : word.kind = .keyword .returnWord) (he : Derives (.expr false e) used)
      (hspan : Covers (word :: used) span) :
      Derives (.primary noStruct (.leaveFunction { span } (some e))) (word :: used)
  | builtinCall {noStruct : Bool} {mark name paren : Token} {pieces : List (List Token × Expr)} {used : List Token}
      {span : Span} (hmark : mark.kind = .at) (hname : name.kind = .identifier) (hparen : paren.kind = .leftParen)
      (hlist : Enumerates .rightParen false true (pieces.map (·.1)) used)
      (hpieces : ∀ p ∈ pieces, Derives (.expr false p.2) p.1) (hspan : Covers (mark :: name :: paren :: used) span) :
      Derives (.primary noStruct (.builtinCall { span } name.text (pieces.map (·.2)))) (mark :: name :: paren :: used)
  | accessed {noStruct : Bool} {e : Expr} {used : List Token} (he : Derives (.primary noStruct e) used) :
      Derives (.accessed noStruct e) used
  | member {noStruct : Bool} {e : Expr} {used : List Token} {dot name : Token}
      (he : Derives (.accessed noStruct e) used) (hdot : dot.kind = .dot) (hname : name.kind = .identifier) :
      Derives (.accessed noStruct (.member { span := e.span.join name.span } e name.text name.span 0))
        (used ++ [dot, name])
  | call {noStruct : Bool} {e : Expr} {paren : Token} {pieces : List (List Token × Expr)} {u₁ u₂ : List Token}
      {span : Span} (he : Derives (.accessed noStruct e) u₁) (hparen : paren.kind = .leftParen)
      (hlist : Enumerates .rightParen false true (pieces.map (·.1)) u₂)
      (hpieces : ∀ p ∈ pieces, Derives (.expr false p.2) p.1) (hspan : Covers (u₁ ++ paren :: u₂) span) :
      Derives (.accessed noStruct (.call { span } e (pieces.map (·.2)))) (u₁ ++ paren :: u₂)
  | operand {noStruct : Bool} {e : Expr} {used : List Token} (he : Derives (.accessed noStruct e) used) :
      Derives (.operand noStruct e) used
  | smallestInteger {noStruct : Bool} {sign number : Token} {span : Span} (hsign : sign.kind = .minus)
      (hnumber : number.kind = .integer) (hn : Literal.integer? number.text.toList = some (integerLimit : Int))
      (hspan : Covers [sign, number] span) :
      Derives (.operand noStruct (.integer { span } Int32.minValue)) [sign, number]
  | unary {noStruct : Bool} {t : Token} {op : UnaryOp} {e : Expr} {used : List Token} {span : Span}
      (ht : t.kind = op.token) (he : Derives (.operand noStruct e) used) (hspan : Covers (t :: used) span) :
      Derives (.operand noStruct (.unary { span } op e)) (t :: used)
  | noOperands {noStruct : Bool} : Derives (.operands noStruct []) []
  | moreOperands {noStruct : Bool} {t : Token} {op : BinaryOp} {e : Expr} {rest : List (BinaryOp × Expr)}
      {u₁ u₂ : List Token} (hop : BinaryOp.ofToken? t.kind = some op) (he : Derives (.operand noStruct e) u₁)
      (hrest : Derives (.operands noStruct rest) u₂) :
      Derives (.operands noStruct ((op, e) :: rest)) (t :: u₁ ++ u₂)
  | operation {noStruct : Bool} {e : Expr} {rest : List (BinaryOp × Expr)} {u₁ u₂ : List Token}
      (he : Derives (.operand noStruct e) u₁) (hrest : Derives (.operands noStruct rest) u₂) :
      Derives (.operation noStruct (Expr.ofOperands e rest)) (u₁ ++ u₂)
  | expr {noStruct : Bool} {e : Expr} {used : List Token} (he : Derives (.operation noStruct e) used) :
      Derives (.expr noStruct e) used
  | assignment {noStruct : Bool} {t : Token} {target source : Expr} {u₁ u₂ : List Token}
      (htarget : Derives (.operation noStruct target) u₁) (ht : t.kind = .assign)
      (hsource : Derives (.expr noStruct source) u₂) :
      Derives (.expr noStruct (.assignment { span := target.span.join source.span } target source)) (u₁ ++ t :: u₂)
  | noElse : Derives (.elseBranch none) []
  | elseIf {word first : Token} {e : Expr} {used : List Token} (hword : word.kind = .keyword .elseWord)
      (hfirst : first.kind = .keyword .ifWord) (he : Derives (.primary false e) (first :: used)) :
      Derives (.elseBranch (some e)) (word :: first :: used)
  | elseBlock {word : Token} {b : Block Expr} {used : List Token} (hword : word.kind = .keyword .elseWord)
      (hb : Derives (.block b) used) : Derives (.elseBranch (some (.block b))) (word :: used)
  | letBinding {word name equal : Token} {mutable : Bool} {mark annotation used : List Token}
      {declared : Option TypeExpr} {init : Expr} {span : Span} (hword : word.kind = .keyword .letWord)
      (hmark : DerivesMutable mutable mark) (hname : name.kind = .identifier)
      (hdeclared : DerivesDeclared declared annotation) (hequal : equal.kind = .assign)
      (hinit : Derives (.expr false init) used)
      (hspan : Covers (word :: mark ++ name :: annotation ++ equal :: used) span) :
      Derives (.statement (.letBinding { span }
        (.owned { name := name.text, kind := .bound, mutable, span := name.span }) declared init))
        (word :: mark ++ name :: annotation ++ equal :: used)
  | nestedFunction {header : Header} {body : Block Expr} {u₁ u₂ : List Token} (hheader : DerivesHeader false header u₁)
      (hbody : Derives (.block body) u₂) :
      Derives (.statement (.function { span := header.span } header body)) (u₁ ++ u₂)
  | blockStatement {e : Expr} {used : List Token} (he : Derives (.primary false e) used) :
      Derives (.statement e) used
  | exprStatement {e : Expr} {used : List Token} (he : Derives (.expr false e) used) : Derives (.statement e) used
  | endOfBlock {brace : Token} (hbrace : brace.kind = .rightBrace) : Derives (.statements [] none) [brace]
  | lastExpr {e : Expr} {brace : Token} {used : List Token} (he : Derives (.statement e) used)
      (hvalue : e.isValue = true) (hbrace : brace.kind = .rightBrace) :
      Derives (.statements [] (some e)) (used ++ [brace])
  | ended {e : Expr} {semicolon : Token} {stmts : List Expr} {tail : Option Expr} {u₁ u₂ : List Token}
      (he : Derives (.statement e) u₁) (hsemicolon : semicolon.kind = .semicolon)
      (hrest : Derives (.statements stmts tail) u₂) :
      Derives (.statements (e :: stmts) tail) (u₁ ++ semicolon :: u₂)
  | unended {e : Expr} {stmts : List Expr} {tail : Option Expr} {u₁ u₂ : List Token}
      (he : Derives (.statement e) u₁) (hform : e.isFunction = true ∨ e.isBlockLike = true)
      (hrest : Derives (.statements stmts tail) u₂) : Derives (.statements (e :: stmts) tail) (u₁ ++ u₂)
  | block {brace : Token} {stmts : List Expr} {tail : Option Expr} {used : List Token} {span : Span}
      (hbrace : brace.kind = .leftBrace) (hstmts : Derives (.statements stmts tail) used)
      (hspan : Covers (brace :: used) span) :
      Derives (.block { info := { span }, frame := none, stmts, tail }) (brace :: used)

/-! ### Values and statements -/

namespace Expr

theorem joinLevel_isValue {level : Nat} {e : Expr} {rest : List (BinaryOp × Expr)} (h : e.isValue = true) :
    (joinLevel level e rest).1.isValue = true := by
  induction rest generalizing e with
  | nil => exact h
  | cons p rest ih =>
    unfold joinLevel
    split
    · exact ih rfl
    · exact h

private theorem ofOperands_isValue {e : Expr} {rest : List (BinaryOp × Expr)} (h : e.isValue = true) :
    (ofOperands e rest).isValue = true := by
  unfold ofOperands
  generalize [7, 6, 5, 4, 3, 2, 1, 0] = levels
  induction levels generalizing e rest with
  | nil => exact h
  | cons level levels ih => exact ih (joinLevel_isValue h)

end Expr

/-- The expression of a phrase that stands for a value. -/
def Phrase.value? : Phrase → Option Expr
  | .primary _ e => some e
  | .accessed _ e => some e
  | .operand _ e => some e
  | .operation _ e => some e
  | .expr _ e => some e
  | _ => none

/-- Only statements declare names. -/
theorem Derives.isValue {phrase : Phrase} {used : List Token} {e : Expr} (h : Derives phrase used)
    (he : phrase.value? = some e) : e.isValue = true := by
  induction h generalizing e with
  | parenthesised _ _ _ ih => exact ih he
  | accessed _ ih => exact ih he
  | operand _ ih => exact ih he
  | expr _ ih => exact ih he
  | operation _ _ ih =>
    cases he
    exact Expr.ofOperands_isValue (ih rfl)
  | _ => cases he <;> rfl

/-! ### Declarations -/

/-- The tokens that a field of a struct is written with. -/
inductive DerivesField : FieldDecl → List Token → Prop where
  | field {name colon : Token} {type : TypeExpr} {used : List Token} (hname : name.kind = .identifier)
      (hcolon : colon.kind = .colon) (htype : DerivesType (.type type) used) :
      DerivesField ⟨name.text, name.span, type⟩ (name :: colon :: used)

/-- The tokens that a struct is written with, behind `export` if it is exported. -/
inductive DerivesStruct (exported : Bool) : StructDecl → List Token → Prop where
  | struct {word name brace : Token} {pieces : List (List Token × FieldDecl)} {used : List Token}
      (hword : word.kind = .keyword .structWord) (hname : name.kind = .identifier) (hbrace : brace.kind = .leftBrace)
      (hlist : Enumerates .rightBrace true true (pieces.map (·.1)) used)
      (hpieces : ∀ p ∈ pieces, DerivesField p.2 p.1) :
      DerivesStruct exported ⟨name.text, name.span, exported, pieces.map (·.2)⟩ (word :: name :: brace :: used)

/-- The tokens that a declaration is written with, behind `export` if it is exported. -/
inductive DerivesDecl (exported : Bool) : Decl → List Token → Prop where
  | struct {decl : StructDecl} {used : List Token} (h : DerivesStruct exported decl used) :
      DerivesDecl exported (.struct decl) used
  | function {header : Header} {body : Block Expr} {u₁ u₂ : List Token} (hheader : DerivesHeader exported header u₁)
      (hbody : Derives (.block body) u₂) :
      DerivesDecl exported (.function ⟨{ span := header.span }, header, body⟩) (u₁ ++ u₂)

/-- The tokens that the declarations of a module are written with, without the end of the input. -/
inductive DerivesModule : List Decl → List Token → Prop where
  | nil : DerivesModule [] []
  | hidden {decl : Decl} {decls : List Decl} {u₁ u₂ : List Token} (hdecl : DerivesDecl false decl u₁)
      (hrest : DerivesModule decls u₂) : DerivesModule (decl :: decls) (u₁ ++ u₂)
  | exported {word : Token} {decl : Decl} {decls : List Decl} {u₁ u₂ : List Token}
      (hword : word.kind = .keyword .exportWord) (hdecl : DerivesDecl true decl u₁) (hrest : DerivesModule decls u₂) :
      DerivesModule (decl :: decls) (word :: u₁ ++ u₂)

end RainCheck
