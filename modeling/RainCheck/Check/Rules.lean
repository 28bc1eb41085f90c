import RainCheck.Builtin
import RainCheck.Resolve

/-!
# Rules of expressions

One rule per kind of expression.  A rule is applied when the parts of an expression are checked; it refuses the
expression or says what is known about it.
* The first problem in the order of the rule counts.
* Operators load their operands: a reference is used as the value behind it.
-/

namespace RainCheck.Action

/-! ### Expected types -/

/-- The type of a checked expression. -/
def typeOf (i : Info) : Action TypeId := lift (unwrap i.type)

/-- The type behind a reference; other types stand for themselves. -/
def load (type : TypeId) : Action TypeId := fromTypes (·.load type)

/-- Notes whether the type of a checked expression is a reference. -/
def settle (i : Info) : Action Info := do
  let reference ← fromTypes (·.isReference (← typeOf i))
  return { i with reference }

/-- Refuses an expression whose type cannot stand for the expected one. -/
def expectType (blame : Span) (actual : Option TypeId) (expected : TypeId) : Action Unit := do
  let actual ← lift (unwrap actual)
  if !(← fromTypes (·.assignable actual expected)) then
    refuse blame (.typeMismatch (← textOf expected) (← textOf actual))

/-- Refuses an expression that cannot stand for the expected type. -/
def expectExpr (e : Expr) (expected : TypeId) : Action Unit := expectType e.blame e.type? expected

/-- Refuses a block that cannot stand for the expected type. -/
def expectBlock (b : Block Expr) (expected : TypeId) : Action Unit := expectType b.blame b.info.type expected

/-- Refuses arguments that cannot stand for the parameters. -/
def expectAll : List Expr → List TypeId → Action Unit
  | [], _ => return
  | _ :: _, [] => fail .outOfRange
  | e :: es, t :: ts => do
    expectExpr e t
    expectAll es ts

/-! ### Names, members and calls -/

/-- Resolves the type of a variable that stands for a function, unless the variable has it already. -/
def resolveVariable (v : Variable) : Action Unit := do
  match v.kind, ((← get).typeOf v).isEmpty with
  | .function declared, true =>
    let _ ← resolveSignature FrameId.module v.span declared
  | _, _ => return

/-- An identifier means the nearest variable of its name; the type of a function is resolved on demand. -/
def identifierRule (frame : FrameId) (info : Info) (name : String) : Action (Variable × Info) := do
  match ← lift ((← get).frames.lookup frame name) with
  | none => refuse info.span (.unknownSymbol name)
  | some v =>
    resolveVariable v
    let type ← lift ((← get).typeOf v).get
    return (v, info.resolve type false false)

/-- The name and the fields of a struct. -/
def fieldsOf (type : TypeId) : Action (String × List (String × TypeId)) := do
  match (← fromTypes (·.get type)).struct? with
  | some (decl, state) => return (decl.name, state.fields)
  | none => fail .outOfRange

/-- A member access gives the position and the type of a field of a struct, or of a struct behind a reference. -/
def memberRule (info : Info) (base : Expr) (name : String) (nameSpan : Span) : Action (Nat × Info) := do
  let outer ← typeOf base.info
  let type ← load outer
  match (← fromTypes (·.get type)).struct? with
  | none => refuse base.span (.typeMismatch "struct" (← textOf outer))
  | some _ =>
    let _ ← complete nameSpan type
    let (owner, fields) ← fieldsOf type
    match fields.findIdx? (·.1 = name) with
    | some index =>
      let field ← lift (itemAt fields index)
      return (index, info.resolve field.2 false false)
    | none => refuse nameSpan (.unknownMember owner name)

/-- A call gives the result of a function, whose parameters the arguments have to match. -/
def callRule (info : Info) (callee : Expr) (args : List Expr) : Action Info := do
  let type ← typeOf callee.info
  match (← fromTypes (·.get type)).function? with
  | none => refuse callee.span (.notCallable (← textOf type))
  | some (params, returns) =>
    if params.length ≠ args.length then refuse info.span (.arityMismatch params.length args.length)
    expectAll args params
    return info.resolve returns false false

/-! ### Operators -/

/-- A reference can be taken to anything that has a location. -/
def addressRule (info : Info) (operand : Expr) : Action Info := do
  let type ← typeOf operand.info
  if !(← lift operand.hasLocation) then refuse operand.span .notAddressable
  let reference ← updateTypes (·.reference type)
  return info.resolve reference false false

/-- What is known about an operation: its value if it has one, and otherwise its type. -/
def operationInfo (info : Info) (type : TypeId) (value : Option Value) (compileTime : Bool) : Info :=
  match value with
  | some v => info.fold type v
  | none => info.resolve type compileTime false

/-- A negation keeps the type of its operand. -/
def negationRule (info : Info) (op : UnaryOp) (operand : Expr) (expected : String) (takes : TypeId → Bool) :
    Action Info := do
  let outer ← typeOf operand.info
  let type ← load outer
  if !takes type then refuse operand.span (.typeMismatch expected (← textOf outer))
  return operationInfo info type (operand.info.value.bind (Value.unary? op)) operand.info.compileTime

/-- Whether a type is that of truth values or of integers. -/
def isLogical (type : TypeId) : Bool := type = TypeId.bool || TypeId.isInteger type

/-- The rule of a unary operator. -/
def unaryRule (info : Info) (op : UnaryOp) (operand : Expr) : Action Info :=
  match op with
  | .negate => negationRule info op operand "numeric type" TypeId.isNumeric
  | .invert => negationRule info op operand "bool or integer type" isLogical
  | .address => addressRule info operand

/-- The operand types of a binary operator, in words and as a property. -/
def operandTypes : BinaryOp → String × (TypeId → Bool)
  | .add | .sub | .mul | .div | .lt | .le | .gt | .ge => ("numeric type", TypeId.isNumeric)
  | .rem | .shl | .shr => ("integer type", TypeId.isInteger)
  | .and | .or | .xor => ("bool or integer type", isLogical)
  | .eq | .ne => ("bool or numeric type", fun t => t = TypeId.bool || TypeId.isNumeric t)

/-- The value of a binary operator on expressions, if both have one. -/
def foldOperands (op : BinaryOp) (lhs rhs : Info) : Action (Option Value) :=
  match lhs.value, rhs.value with
  | some l, some r => lift (Value.binary? op l r)
  | _, _ => return none

/-- Both operands of a binary operator have one type; a comparison gives a truth value. -/
def binaryRule (info : Info) (op : BinaryOp) (lhs rhs : Expr) : Action Info := do
  let left ← load (← typeOf lhs.info)
  let right ← load (← typeOf rhs.info)
  let (expected, takes) := operandTypes op
  if !takes left then refuse lhs.span (.typeMismatch expected (← textOf left))
  if left ≠ right then refuse rhs.span (.typeMismatch (← textOf left) (← textOf right))
  let type := if op.isComparison then TypeId.bool else left
  let value ← foldOperands op lhs.info rhs.info
  return operationInfo info type value (lhs.info.compileTime && rhs.info.compileTime)

/-- Refuses to store into an immutable variable or a part of it, unless through a reference. -/
def expectMutable (target : Expr) : Action Unit := do
  match ← lift target.place? with
  | some place =>
    if !place.root.mutable && !place.indirect then refuse target.span (.immutableAssignment place.root.name)
  | none => return

/-- An assignment stores into a location, through it if it is a reference. -/
def assignmentRule (info : Info) (target source : Expr) : Action Info := do
  expectMutable target
  if !(← lift target.hasLocation) then refuse target.span .notAddressable
  expectExpr source (← load (← typeOf target.info))
  return info.resolve TypeId.void false false

/-! ### Builtins -/

/-- The builtin of a name. -/
def findBuiltin (info : Info) (name : String) : Action Builtin :=
  match Builtin.ofName? name with
  | some b => return b
  | none => refuse info.span (.unknownSymbol ("@" ++ name))

/-- Refuses a second argument whose type is not that of the first one. -/
def matchSecond (type : TypeId) : List Expr → Action Unit
  | [_, second] => do
    let other ← load (← typeOf second.info)
    if other ≠ type then refuse second.span (.typeMismatch (← textOf type) (← textOf other))
  | _ => return

/-- The values of expressions that all have one. -/
def valuesOf (args : List Expr) : Option (List Value) := args.mapM (·.info.value)

/-- Refuses a builtin whose feature is not enabled, for a first argument of a type. -/
def expectFeature (options : Options) (info : Info) (b : Builtin) (type : TypeId) : Action Unit :=
  match b.family.feature? type with
  | some feature => if !options.has feature then refuse info.span (.featureDisabled b.name feature.name) else return
  | none => return

/-- The value of a builtin on constants, if the options ask for it. -/
def foldArguments (options : Options) (b : Builtin) (args : List Expr) : Action (Option Value) :=
  match options.constantFolding, valuesOf args with
  | true, some values => lift (b.value? values)
  | _, _ => return none

/-- A builtin takes the types of its family, may need a feature, and is computed on constants if the options say so. -/
def builtinRule (options : Options) (info : Info) (b : Builtin) (args : List Expr) : Action Info := do
  let family := b.family
  if args.length ≠ family.arity then refuse info.span (.arityMismatch family.arity args.length)
  match args with
  | [] => fail .outOfRange
  | first :: _ =>
    let type ← load (← typeOf first.info)
    if !family.takes type then refuse first.span (.typeMismatch family.expected (← textOf type))
    matchSecond type args
    expectFeature options info b type
    let value ← foldArguments options b args
    return operationInfo info (family.result type) value (args.all (·.info.compileTime))

/-! ### Struct literals -/

/-- The struct of a literal, with its name and fields. -/
def literalStruct (frame : FrameId) (info : Info) (name : String) :
    Action (TypeId × String × List (String × TypeId)) := do
  match ← lift ((← get).frames.lookupType frame name) with
  | none => refuse info.span (.unknownSymbol name)
  | some type =>
    match (← fromTypes (·.get type)).struct? with
    | none => refuse info.span (.typeMismatch "struct" name)
    | some _ =>
      let _ ← complete info.span type
      let (owner, fields) ← fieldsOf type
      return (type, owner, fields)

/-- The declared type of a field that a literal gives, once. -/
def fieldRule (owner : String) (declared : List (String × TypeId)) (seen : List String) (name : String) (span : Span) :
    Action TypeId := do
  match declared.findIdx? (·.1 = name) with
  | none => refuse span (.unknownMember owner name)
  | some index =>
    if seen.contains name then refuse span (.duplicateDeclaration name)
    return (← lift (itemAt declared index)).2

/-- A struct literal gives every declared field. -/
def literalRule (info : Info) (type : TypeId) (owner : String) (declared : List (String × TypeId))
    (fields : List (FieldInit Expr)) : Action Info := do
  match declared.find? (fun d => !fields.any (·.name = d.1)) with
  | some (missing, _) => refuse info.span (.missingMember owner missing)
  | none =>
    return info.resolve type (fields.all (·.value.info.compileTime)) (fields.all (·.value.info.constant))

/-! ### Statements and control flow -/

/-- The variable of a binding with its type: the declared one, or that of the initial value. -/
def letRule (frame : FrameId) (binding : Holder Variable) (declared : Option TypeExpr) (init : Expr) :
    Action Variable := do
  let v ← lift binding.get
  match declared with
  | some declared =>
    let type ← resolveType frame declared
    expectExpr init type
    return { v with type := .borrowed type }
  | none => return { v with type := .owned (← typeOf init.info) }

/-- A block has the type of its last expression; without one it completes unless one of its statements never does. -/
def blockRule (info : Info) (stmts : List Expr) (tail : Option Expr) : Action Info := do
  match tail with
  | some e => return info.resolve (← typeOf e.info) false false
  | none =>
    let diverges := stmts.any fun e => e.type? = some TypeId.never
    return info.resolve (if diverges then TypeId.never else TypeId.void) false false

/-- The branches of a conditional have one type; without a second branch it has no value. -/
def ifRule (info : Info) (thenBlock : Block Expr) (elseBranch : Option Expr) : Action Info := do
  match elseBranch with
  | none =>
    expectBlock thenBlock TypeId.void
    return info.resolve TypeId.void false false
  | some other =>
    let thenType ← typeOf thenBlock.info
    let elseType ← typeOf other.info
    if ← fromTypes (·.assignable elseType thenType) then return info.resolve thenType false false
    if ← fromTypes (·.assignable thenType elseType) then return info.resolve elseType false false
    expectExpr other thenType
    return info

/-- A jump out of a loop or to its next round stands inside a loop. -/
def jumpRule (info : Info) (keyword : String) (inLoop : Bool) : Action Info := do
  if !inLoop then refuse info.span (.misplacedJump keyword "loop")
  return info.resolve TypeId.never false false

/-- Refuses a result that cannot stand for the one of a function; without one the function gives no value. -/
def expectResult (info : Info) (returns : TypeId) : Option Expr → Action Unit
  | none => do
    if returns ≠ TypeId.void then refuse info.span (.typeMismatch (← textOf returns) (← textOf TypeId.void))
  | some e => expectExpr e returns

/-- A return gives the result of the function around it. -/
def returnRule (info : Info) (returns : Option TypeId) (result : Option Expr) : Action Info := do
  match returns with
  | none => refuse info.span (.misplacedJump "return" "function")
  | some returns =>
    expectResult info returns result
    return info.resolve TypeId.never false false

/-! ### Functions -/

/-- Makes a nested function known to its surroundings, and gives a frame of the module in which it knows itself. -/
def enterNested (frame : FrameId) (header : Header) : Action FrameId := do
  registerFunction frame header
  let own ← nest FrameId.module
  declare own header.binding
  return own

/-- What the body of a function is checked with. -/
structure Entry where
  signature : TypeId
  params : List TypeId
  returns : TypeId
  frame : FrameId

/-- Resolves the type of a function and gives a frame for its parameters. -/
def enterFunction (frame : FrameId) (header : Header) : Action Entry := do
  let signature ← resolveSignature frame header.span header.prototype
  match (← fromTypes (·.get signature)).function? with
  | some (params, returns) => return ⟨signature, params, returns, ← nest frame⟩
  | none => fail .outOfRange

end RainCheck.Action
