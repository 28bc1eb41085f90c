import RainCheck.Store

/-!
# Resolving declared types

How a written type becomes a position in the list of types.
* A name is looked up.  If it is a struct, its fields are resolved first, on demand; a struct that is met again while
  its fields are being resolved contains itself, which is refused.
* Directly behind `&` a struct is not resolved, so references are the way to recursive structs.
* A struct that fails keeps its first problem and gives it to everyone who asks again; so does a function.

Registering a declaration makes its name known, and a declaration is registered at most once.
-/

namespace RainCheck.Action

/-! ### Types and structs -/

mutual

/--
The position of a written type.  `complete` is applied to each named type that is used by value, with the span of the
name.
-/
def resolveTypeWith (complete : Span → TypeId → Action TypeId) (frame : FrameId) (shallow : Bool) :
    TypeExpr → Action TypeId
  | .named span name => do
    match ← lift ((← get).frames.lookupType frame name) with
    | none => refuse span (.unknownSymbol name)
    | some id => if shallow then return id else complete span id
  | .reference _ inner => do
    let inner ← resolveTypeWith complete frame true inner
    updateTypes (·.reference inner)
  | .function _ params returns => do
    let params ← resolveTypesWith complete frame params
    let returns ← resolveReturnsWith complete frame returns
    updateTypes (·.functionOf params returns)

/-- The positions of written types, from left to right. -/
def resolveTypesWith (complete : Span → TypeId → Action TypeId) (frame : FrameId) :
    List TypeExpr → Action (List TypeId)
  | [] => return []
  | t :: rest => do
    let t ← resolveTypeWith complete frame false t
    let rest ← resolveTypesWith complete frame rest
    return t :: rest

/-- The position of the type that a function returns; without one it returns no value. -/
def resolveReturnsWith (complete : Span → TypeId → Action TypeId) (frame : FrameId) :
    Option TypeExpr → Action TypeId
  | some t => resolveTypeWith complete frame false t
  | none => return TypeId.void

end

/-- The fields of a struct with their types, behind those that are resolved already; no name may occur twice. -/
def resolveFields (resolve : TypeExpr → Action TypeId) :
    (done : List (String × TypeId)) → List FieldDecl → Action (List (String × TypeId))
  | done, [] => return done
  | done, field :: rest => do
    if (done.lookup field.name).isSome then refuse field.span (.duplicateDeclaration field.name)
    let type ← resolve field.type
    resolveFields resolve (done ++ [(field.name, type)]) rest

/-- Changes the state of a struct. -/
def setState (type : TypeId) (state : StructState) : Action Unit :=
  updateTypes fun ts => ((), ts.setState type state)

/-- Starts to resolve the fields of a struct. -/
def startResolving (type : TypeId) : Action Unit :=
  updateTypes fun ts => ((), { ts.setState type .resolving with resolving := ts.resolving.push type })

/-- Stops to resolve the fields of the struct that was started last. -/
def stopResolving : Action Unit := do
  let (_, resolving) ← fromTypes (·.resolving.pop)
  updateTypes fun ts => ((), { ts with resolving })

/-- Resolves the fields of a registered struct, in the frame it is registered in. -/
def resolveBody (complete : Span → TypeId → Action TypeId) (decl : StructDecl) : Action TypeId := do
  let record ← lift (unwrap ((← get).structs.find? decl.span))
  startResolving record.type
  match ← outcome (resolveFields (resolveTypeWith complete record.frame false) [] decl.fields) with
  | .ok fields =>
    stopResolving
    setState record.type (.resolved fields)
    return record.type
  | .error (.refused why) =>
    stopResolving
    setState record.type (.failed why)
    throw (.refused why)
  | .error (.fault f) => fail f

/-- The names of the structs from one that is being resolved to the innermost one, and that one again. -/
def cycleFrom (type : TypeId) (name : String) : Action (List String) := do
  let cycle := ((← get).types.resolving.fromLowest (· = type)).getD []
  let names ← cycle.mapM textOf
  return names ++ [name]

/--
Resolves a type that is used at a given span.  Other types than structs need nothing; the fields of a struct are
resolved unless they are already.  `depth` bounds how deep structs contain each other.
-/
def completeWithin : (depth : Nat) → Span → TypeId → Action TypeId
  | 0, _, _ => fail .exhausted
  | depth + 1, use, type => do
    match ← fromTypes (·.get type) with
    | .struct decl .unresolved => resolveBody (completeWithin depth) decl
    | .struct decl .resolving => refuse use (.recursiveType (← cycleFrom type decl.name))
    | .struct _ (.failed why) => throw (.refused why)
    | _ => return type

/-- A bound on how deep structs can contain each other. -/
def depthBound : Action Nat := return 2 * (← get).types.size + 2

/-- Resolves a type that is used at a given span. -/
def complete (use : Span) (type : TypeId) : Action TypeId := do
  completeWithin (← depthBound) use type

/-- The position of a written type in a frame. -/
def resolveType (frame : FrameId) (t : TypeExpr) : Action TypeId := do
  resolveTypeWith (completeWithin (← depthBound)) frame false t

/-- The positions of written types in a frame. -/
def resolveTypes (frame : FrameId) (ts : List TypeExpr) : Action (List TypeId) := do
  resolveTypesWith (completeWithin (← depthBound)) frame ts

/-- The position of the type that a function returns, in a frame. -/
def resolveReturns (frame : FrameId) (t : Option TypeExpr) : Action TypeId := do
  resolveReturnsWith (completeWithin (← depthBound)) frame t

/-! ### Declarations -/

/-- Makes the name of a struct known in a frame, and for others if it is exported. -/
def registerStruct (frame : FrameId) (decl : StructDecl) : Action Unit := do
  if ((← get).structs.find? decl.span).isSome then return
  let type ← updateTypes (·.addStruct decl)
  declareType frame decl.name type decl.span
  modify fun s => { s with structs := s.structs.insert decl.span ⟨type, frame⟩ }
  if decl.exported then declareType FrameId.exported decl.name type decl.span

/-- Registers and resolves a struct. -/
def resolveStruct (frame : FrameId) (decl : StructDecl) : Action TypeId := do
  registerStruct frame decl
  let record ← lift (unwrap ((← get).structs.find? decl.span))
  complete decl.span record.type

/-- Makes the name of a function known in a frame, and for others if it is exported. -/
def registerFunction (frame : FrameId) (header : Header) : Action Unit := do
  if ((← get).function header.span).variableType.isSome then return
  declare frame header.binding
  updateFunction header.span ({ · with variableType := some .empty })
  if header.exported then declare FrameId.exported header.binding

/-- The type of a function from its declared types. -/
def resolvePrototype (frame : FrameId) (declared : Prototype) : Action TypeId := do
  let params ← resolveTypes frame declared.params
  let returns ← resolveReturns frame declared.returns
  updateTypes (·.functionOf params returns)

/--
The type of the function declared at a span.  It is resolved once; the variable of the function, if there is one by
then, gets it.
-/
def resolveSignature (frame : FrameId) (key : Span) (declared : Prototype) : Action TypeId := do
  let record := (← get).function key
  match record.signature, record.failure with
  | some signature, _ => return signature
  | none, some why => throw (.refused why)
  | none, none =>
    match ← outcome (resolvePrototype frame declared) with
    | .ok signature =>
      updateFunction key fun r =>
        { r with signature := some signature, variableType := r.variableType.map fun _ => .owned signature }
      return signature
    | .error (.refused why) =>
      updateFunction key ({ · with failure := some why })
      throw (.refused why)
    | .error (.fault f) => fail f

end RainCheck.Action
