import RainCheck.Check.Rules

/-!
# Checking expressions

`check` walks through an expression in the order of evaluation and returns it with all that is found out written on its
nodes.
* A node that has a type already is left alone.
* The walk ends with the first problem.  From then on it changes nothing more, so a refused tree carries what was found
  out before.
* A nested function is checked apart: it sees the module and itself, but no local names and no loop around it.
-/

namespace RainCheck

/-- The state of a walk: the store, the loops around, innermost first, each with whether it is left, and the end. -/
structure CheckState where
  store : Store
  loops : List Bool := []
  stop : Option Stop := none

/-- Walks through a tree. -/
abbrev Check (α : Type) := StateM CheckState α

/-- What is the same for a whole function body. -/
structure Context where
  options : Options
  /-- The type that the function around returns, if there is one. -/
  returns : Option TypeId

namespace Check

variable {α : Type}

/-- Whether the walk has ended. -/
def stopped : Check Bool := return (← get).stop.isSome

/-- Acts on the store, unless the walk has ended; if the action ends early, so does the walk. -/
def attempt (a : Action α) : Check (Option α) := fun s =>
  match s.stop with
  | some _ => (none, s)
  | none =>
    match a.run s.store with
    | (.ok a, store) => (some a, { s with store })
    | (.error stop, store) => (none, { s with store, stop := some stop })

/-- What a rule says about a node; before the rule has said anything, it is what was known before. -/
def conclude (info : Info) (rule : Action Info) : Check Info := do
  let found ← attempt (do Action.settle (← rule))
  return found.getD info

/-- Acts on the store for the sake of its refusal only. -/
def demand (a : Action Unit) : Check Unit := do
  let _ ← attempt a

/-- Enters a loop. -/
def enterLoop : Check Unit := modify fun s => { s with loops := false :: s.loops }

/-- Leaves the innermost loop, and says whether a jump out of it was met. -/
def exitLoop : Check Bool := do
  let s ← get
  set { s with loops := s.loops.drop 1 }
  return s.loops.head?.getD false

/-- Notes that the innermost loop is left by a jump. -/
def markLeft : Check Unit := modify fun s => { s with loops := s.loops.modifyHead fun _ => true }

/-- Gives the parameters of a function their types and declares them in its frame. -/
def bindParams (frame : FrameId) : List Param → List TypeId → Check (List Param)
  | [], _ => return []
  | p :: rest, [] => do
    demand (Action.fail .outOfRange)
    return p :: rest
  | p :: rest, type :: types => do
    if ← stopped then return p :: rest
    let binding := { p.binding with type := .borrowed type }
    demand (Action.declare frame binding)
    let rest ← bindParams frame rest types
    return { p with binding } :: rest

/--
Checks a function in the frame it is declared in, apart from the loops around it.  `walk` checks its body.
-/
def functionWith (options : Options) (frame : FrameId) (info : Info) (header : Header) (body : Block Expr)
    (walk : Context → FrameId → Check (Block Expr)) : Check (Info × Header × Block Expr) := do
  if info.type.isSome then return (info, header, body)
  match ← attempt (Action.enterFunction frame header) with
  | none => return (info, header, body)
  | some entry =>
    let params ← bindParams entry.frame header.params entry.params
    let around := (← get).loops
    modify ({ · with loops := [] })
    let body ← walk ⟨options, some entry.returns⟩ entry.frame
    modify ({ · with loops := around })
    let rule := do
      Action.expectBlock body entry.returns
      return info.resolve entry.signature false false
    return (← conclude info rule, { header with params }, body)

mutual

/-- Checks an expression in a frame. -/
def expr (c : Context) (frame : FrameId) (e : Expr) : Check Expr := do
  if (← stopped) || e.info.type.isSome then return e
  match e with
  | .integer info n => return .integer (← conclude info (return info.fold TypeId.i32 (.i32 n))) n
  | .float info x => return .float (← conclude info (return info.fold TypeId.f64 (.f64 x))) x
  | .boolean info b => return .boolean (← conclude info (return info.fold TypeId.bool (.bool b))) b
  | .identifier info name binding =>
    match ← attempt (Action.identifierRule frame info name) with
    | some (v, found) => return .identifier (← conclude info (return found)) name (some v)
    | none => return .identifier info name binding
  | .member info base name nameSpan index =>
    let base ← expr c frame base
    match ← attempt (Action.memberRule info base name nameSpan) with
    | some (index, found) => return .member (← conclude info (return found)) base name nameSpan index
    | none => return .member info base name nameSpan index
  | .call info callee args =>
    let callee ← expr c frame callee
    let args ← exprs c frame args
    return .call (← conclude info (Action.callRule info callee args)) callee args
  | .builtinCall info name args =>
    match ← attempt (Action.findBuiltin info name) with
    | some b =>
      let args ← exprs c frame args
      return .builtinCall (← conclude info (Action.builtinRule c.options info b args)) name args
    | none => return .builtinCall info name args
  | .unary info op operand =>
    let operand ← expr c frame operand
    return .unary (← conclude info (Action.unaryRule info op operand)) op operand
  | .binary info op lhs rhs =>
    let lhs ← expr c frame lhs
    let rhs ← expr c frame rhs
    return .binary (← conclude info (Action.binaryRule info op lhs rhs)) op lhs rhs
  | .assignment info target source =>
    let target ← expr c frame target
    let source ← expr c frame source
    return .assignment (← conclude info (Action.assignmentRule info target source)) target source
  | .structLiteral info name inits =>
    match ← attempt (Action.literalStruct frame info name) with
    | some (type, owner, declared) =>
      let inits ← fields c frame owner declared [] inits
      return .structLiteral (← conclude info (Action.literalRule info type owner declared inits)) name inits
    | none => return .structLiteral info name inits
  | .letBinding info binding declared init =>
    let init ← expr c frame init
    match ← attempt (Action.letRule frame binding declared init) with
    | some v =>
      let binding := binding.map fun _ => v
      match ← attempt (do Action.declare frame v; Action.lift binding.take) with
      | some (v, _) =>
        return .letBinding (← conclude info (return info.resolve TypeId.void false false)) (.borrowed v) declared init
      | none => return .letBinding info binding declared init
    | none => return .letBinding info binding declared init
  | .block b => return .block (← block c frame b)
  | .ifElse info cond thenBlock elseBranch =>
    let cond ← expr c frame cond
    demand (Action.expectExpr cond TypeId.bool)
    let thenBlock ← block c frame thenBlock
    let elseBranch ← option c frame elseBranch
    return .ifElse (← conclude info (Action.ifRule info thenBlock elseBranch)) cond thenBlock elseBranch
  | .whileLoop info cond body =>
    let cond ← expr c frame cond
    demand (Action.expectExpr cond TypeId.bool)
    enterLoop
    let body ← block c frame body
    let _ ← exitLoop
    let rule := do
      Action.expectBlock body TypeId.void
      return info.resolve TypeId.void false false
    return .whileLoop (← conclude info rule) cond body
  | .endlessLoop info body =>
    enterLoop
    let body ← block c frame body
    let left ← exitLoop
    let rule := do
      Action.expectBlock body TypeId.void
      return info.resolve (if left then TypeId.void else TypeId.never) false false
    return .endlessLoop (← conclude info rule) body
  | .leaveLoop info =>
    let inLoop := !(← get).loops.isEmpty
    markLeft
    return .leaveLoop (← conclude info (Action.jumpRule info "break" inLoop))
  | .nextRound info =>
    let inLoop := !(← get).loops.isEmpty
    return .nextRound (← conclude info (Action.jumpRule info "continue" inLoop))
  | .leaveFunction info result =>
    let result ← if c.returns.isSome then option c frame result else pure result
    return .leaveFunction (← conclude info (Action.returnRule info c.returns result)) result
  | .function info header body =>
    match ← attempt (Action.enterNested frame header) with
    | some own =>
      let (info, header, body) ← functionWith c.options own info header body fun c frame => block c frame body
      return .function info header body
    | none => return .function info header body

/-- Checks an expression that may be left out. -/
def option (c : Context) (frame : FrameId) (e : Option Expr) : Check (Option Expr) :=
  match e with
  | some e => return some (← expr c frame e)
  | none => return none

/-- Checks expressions from left to right. -/
def exprs (c : Context) (frame : FrameId) (es : List Expr) : Check (List Expr) :=
  match es with
  | [] => return []
  | e :: rest => do
    let e ← expr c frame e
    let rest ← exprs c frame rest
    return e :: rest

/-- Checks the fields of a struct literal, of which those in `seen` are given already. -/
def fields (c : Context) (frame : FrameId) (owner : String) (declared : List (String × TypeId)) (seen : List String)
    (inits : List (FieldInit Expr)) : Check (List (FieldInit Expr)) :=
  match inits with
  | [] => return []
  | ⟨name, span, value⟩ :: rest => do
    match ← attempt (Action.fieldRule owner declared seen name span) with
    | some type =>
      let value ← expr c frame value
      demand (Action.expectExpr value type)
      let rest ← fields c frame owner declared (name :: seen) rest
      return ⟨name, span, value⟩ :: rest
    | none => return ⟨name, span, value⟩ :: rest

/-- Checks a block in a new frame inside the given one. -/
def block (c : Context) (frame : FrameId) (b : Block Expr) : Check (Block Expr) :=
  match b with
  | ⟨info, entered, stmts, tail⟩ => do
    if (← stopped) || info.type.isSome then return ⟨info, entered, stmts, tail⟩
    match ← attempt (Action.nest frame) with
    | none => return ⟨info, entered, stmts, tail⟩
    | some inner =>
      let stmts ← exprs c inner stmts
      let tail ← option c inner tail
      return ⟨← conclude info (Action.blockRule info stmts tail), some inner, stmts, tail⟩

end

attribute [grind =] expr option exprs fields block

/-- The walk through a jump: what it notes about the loop around it, and its rule. -/
def jump (make : Info → Expr) (keyword : String) (note : Check Unit) (info : Info) : Check Expr := do
  if (← stopped) || info.type.isSome then return make info
  let inLoop := !(← get).loops.isEmpty
  note
  return make (← conclude info (Action.jumpRule info keyword inLoop))

theorem expr_leaveLoop {c : Context} {frame : FrameId} {info : Info} :
    expr c frame (.leaveLoop info) = jump .leaveLoop "break" markLeft info := by
  rw [expr]
  rfl

theorem expr_nextRound {c : Context} {frame : FrameId} {info : Info} :
    expr c frame (.nextRound info) = jump .nextRound "continue" (pure ()) info := by
  rw [expr]
  rfl

end Check

/-- Checks an expression that stands in a frame, outside of any function. -/
def Expr.check (options : Options) (frame : FrameId) (e : Expr) (store : Store) : Expr × CheckState :=
  (Check.expr ⟨options, none⟩ frame e).run { store }

/-- Checks a function that is declared in a frame. -/
def FunctionDecl.check (options : Options) (frame : FrameId) (f : FunctionDecl) (store : Store) :
    FunctionDecl × CheckState :=
  let walk := fun c frame => Check.block c frame f.body
  let ((info, header, body), s) := (Check.functionWith options frame f.info f.header f.body walk).run { store }
  (⟨info, header, body⟩, s)

end RainCheck
