import RainCheck.Holder
import RainCheck.Tree.TypeExpr
import RainCheck.Value

/-!
# Expressions

The tree of a function body.  Each node carries an `Info`: where it stands and, once it is checked, its type and what
is known about its value.
* Statements, blocks and nested functions are expressions too.
* `Expr.hasLocation` and `Expr.place?` say which expressions denote a location, and which one.
-/

namespace RainCheck

/-- The number of a type in the list of all types. -/
abbrev TypeId := Nat

/-- The number of a frame in the list of all frames. -/
abbrev FrameId := Nat

/-- What a variable stands for. -/
inductive VariableKind where
  /-- A name bound by `let`. -/
  | bound
  /-- A parameter of a function. -/
  | argument
  /-- The name of a function. -/
  | function (declared : Prototype)

/-- Whether a variable is the name of a function. -/
def VariableKind.isFunction : VariableKind → Bool
  | .function _ => true
  | _ => false

/-- A declared name.  The type of the name of a function is kept with the function, so `type` stays empty there. -/
structure Variable where
  name : String
  kind : VariableKind
  mutable : Bool
  span : Span
  type : Holder TypeId := .empty

/-- A parameter with its declared type. -/
structure Param where
  binding : Variable
  declared : TypeExpr

/-- The head of a function declaration; its span is that of the name. -/
structure Header where
  name : String
  span : Span
  exported : Bool
  params : List Param
  returns : Option TypeExpr

/-- The declared types of a function. -/
def Header.prototype (h : Header) : Prototype := ⟨h.params.map (·.declared), h.returns⟩

/-- The variable that stands for a function. -/
def Header.binding (h : Header) : Variable where
  name := h.name
  kind := .function h.prototype
  mutable := false
  span := h.span

/-- Where a node stands and what is known about it; before it is checked, nothing is. -/
structure Info where
  span : Span
  type : Option TypeId := none
  /-- The value could be computed before the program runs. -/
  compileTime : Bool := false
  /-- The value is known. -/
  constant : Bool := false
  value : Option Value := none
  /-- The type is a reference. -/
  reference : Bool := false

namespace Info

/-- Records the type of a node. -/
def resolve (i : Info) (type : TypeId) (compileTime constant : Bool) : Info :=
  { i with type := some type, compileTime, constant }

/-- Records the type and the value of a node. -/
def fold (i : Info) (type : TypeId) (value : Value) : Info :=
  { i with type := some type, compileTime := true, constant := true, value := some value }

end Info

/-- A sequence of statements and an optional last expression, over the expressions `ε`. -/
structure Block (ε : Type) where
  info : Info
  /-- The frame of the names declared in the block, once it is entered. -/
  frame : Option FrameId
  stmts : List ε
  tail : Option ε

/-- The value given to a field, over the expressions `ε`. -/
structure FieldInit (ε : Type) where
  name : String
  span : Span
  value : ε

/-- Expressions and statements. -/
inductive Expr where
  | integer (info : Info) (literal : Int32)
  | float (info : Info) (literal : Float)
  | boolean (info : Info) (literal : Bool)
  | identifier (info : Info) (name : String) (binding : Option Variable)
  | member (info : Info) (base : Expr) (name : String) (nameSpan : Span) (index : Nat)
  | call (info : Info) (callee : Expr) (args : List Expr)
  | builtinCall (info : Info) (name : String) (args : List Expr)
  | unary (info : Info) (op : UnaryOp) (operand : Expr)
  | binary (info : Info) (op : BinaryOp) (lhs rhs : Expr)
  | assignment (info : Info) (target source : Expr)
  | structLiteral (info : Info) (name : String) (fields : List (FieldInit Expr))
  | letBinding (info : Info) (binding : Holder Variable) (declared : Option TypeExpr) (init : Expr)
  | block (block : Block Expr)
  | ifElse (info : Info) (cond : Expr) (thenBlock : Block Expr) (elseBranch : Option Expr)
  | whileLoop (info : Info) (cond : Expr) (body : Block Expr)
  | endlessLoop (info : Info) (body : Block Expr)
  | leaveLoop (info : Info)
  | nextRound (info : Info)
  | leaveFunction (info : Info) (result : Option Expr)
  | function (info : Info) (header : Header) (body : Block Expr)

namespace Expr

/-- What is known about an expression. -/
def info : Expr → Info
  | .integer i _ => i
  | .float i _ => i
  | .boolean i _ => i
  | .identifier i _ _ => i
  | .member i _ _ _ _ => i
  | .call i _ _ => i
  | .builtinCall i _ _ => i
  | .unary i _ _ => i
  | .binary i _ _ _ => i
  | .assignment i _ _ => i
  | .structLiteral i _ _ => i
  | .letBinding i _ _ _ => i
  | .block b => b.info
  | .ifElse i _ _ _ => i
  | .whileLoop i _ _ => i
  | .endlessLoop i _ => i
  | .leaveLoop i => i
  | .nextRound i => i
  | .leaveFunction i _ => i
  | .function i _ _ => i

/-- Where an expression stands. -/
def span (e : Expr) : Span := e.info.span

/-- The type of an expression, once it is checked. -/
def type? (e : Expr) : Option TypeId := e.info.type

/-- Whether an expression forms a statement without a semicolon. -/
def isBlockLike : Expr → Bool
  | .block _ => true
  | .ifElse _ _ _ _ => true
  | .whileLoop _ _ _ => true
  | .endlessLoop _ _ => true
  | _ => false

/-- Whether an expression is a nested function. -/
def isFunction : Expr → Bool
  | .function _ _ _ => true
  | _ => false

end Expr

/-- The span blamed for the type of a block: that of its last expression, if it has one. -/
def Block.blame (b : Block Expr) : Span :=
  match b.tail with
  | some e => e.span
  | none => b.info.span

/-- The span blamed for the type of an expression. -/
def Expr.blame : Expr → Span
  | .block b => b.blame
  | e => e.span

/-- A variable, or a part of it reached along field positions. -/
structure Place where
  root : Variable
  path : List Nat
  /-- The place is reached through a reference. -/
  indirect : Bool

namespace Expr

/--
Whether a checked expression denotes a location that can be assigned to or referred to: a mutable variable, a
reference, or a member of a location or of a reference.  An identifier without its variable is a fault.
-/
def hasLocation : Expr → Except Fault Bool
  | .identifier i _ binding =>
    match binding with
    | some v => .ok (v.mutable || i.reference)
    | none => .error .outOfRange
  | .member _ base _ _ _ => if base.info.reference then .ok true else hasLocation base
  | _ => .ok false

/-- The place that a checked expression denotes, if it is a variable followed by member accesses. -/
def place? : Expr → Except Fault (Option Place)
  | .identifier i _ binding =>
    match binding with
    | some v => .ok (some ⟨v, [], i.reference⟩)
    | none => .error .outOfRange
  | .member _ base _ _ index => do
    match ← place? base with
    | some p => return some { p with path := p.path ++ [index], indirect := p.indirect || base.info.reference }
    | none => return none
  | _ => .ok none

end Expr

end RainCheck
