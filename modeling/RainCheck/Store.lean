import RainCheck.Scope

/-!
# The store of a module

A `Store` holds all that is known about a module besides its tree: its types, its frames, and what has become of each
declared function and struct.  An `Action` is a computation on the store that may end early; the store keeps what was
done before the end.
-/

namespace RainCheck

/-- What is known about a declared function. -/
structure FunctionRecord where
  /-- The type held by the variable of the function; there is a variable once the function is registered. -/
  variableType : Option (Holder TypeId) := none
  /-- The type of the function, once it is resolved. -/
  signature : Option TypeId := none
  /-- Why the type of the function cannot be resolved. -/
  failure : Option Diagnostic := none

/-- What is known about a registered struct: its type and the frame it is registered in. -/
structure StructRecord where
  type : TypeId
  frame : FrameId

/-- Records by the span of the declared name. -/
structure Records (α : Type) where
  entries : List (Span × α) := []

namespace Records

variable {α : Type}

/-- The record of a declaration. -/
def find? (r : Records α) (key : Span) : Option α := r.entries.lookup key

/-- Sets the record of a declaration. -/
def insert (r : Records α) (key : Span) (value : α) : Records α :=
  ⟨(key, value) :: r.entries.filter (fun e => e.1 ≠ key)⟩

end Records

/-- All that is known about a module besides its tree. -/
structure Store where
  types : Types := .initial
  frames : Frames := .initial
  functions : Records FunctionRecord := {}
  structs : Records StructRecord := {}

namespace Store

/-- The record of a function; nothing is known about one that has none. -/
def function (s : Store) (key : Span) : FunctionRecord := (s.functions.find? key).getD {}

/-- The type of a variable, as it is held by the variable. -/
def typeOf (s : Store) (v : Variable) : Holder TypeId :=
  if v.kind.isFunction then (s.function v.span).variableType.getD .empty else v.type

end Store

/-- Computations on the store that may end early. -/
abbrev Action (α : Type) := ExceptT Stop (StateM Store) α

namespace Action

variable {α : Type}

/-- Ends with a problem of the program. -/
def refuse (span : Span) (cause : Cause) : Action α := throw (.refused ⟨span, cause⟩)

/-- Ends with a fault. -/
def fail (f : Fault) : Action α := throw (.fault f)

/-- A value, or the fault that keeps it from being computed. -/
def lift : Except Fault α → Action α
  | .ok a => pure a
  | .error f => fail f

/-- A value, or the reason why it cannot be computed. -/
def liftStop : Except Stop α → Action α
  | .ok a => pure a
  | .error s => throw s

/-- How an action ends; the store keeps what it has done. -/
def outcome (a : Action α) : Action (Except Stop α) := ExceptT.lift a.run

/-- Reads something off the types. -/
def fromTypes (read : Types → Except Fault α) : Action α := do
  lift (read (← get).types)

/-- Changes the types. -/
def updateTypes (change : Types → α × Types) : Action α := do
  let s ← get
  let (a, types) := change s.types
  set { s with types }
  return a

/-- Changes the frames. -/
def updateFrames (change : Frames → Except Stop Frames) : Action Unit := do
  let s ← get
  let frames ← liftStop (change s.frames)
  set { s with frames }

/-- Changes the record of a function. -/
def updateFunction (key : Span) (change : FunctionRecord → FunctionRecord) : Action Unit :=
  modify fun s => { s with functions := s.functions.insert key (change (s.function key)) }

/-- Adds an empty frame inside another one. -/
def nest (frame : FrameId) : Action FrameId := do
  let s ← get
  let (id, frames) ← lift (s.frames.nest frame)
  set { s with frames }
  return id

/-- Declares a variable in a frame. -/
def declare (frame : FrameId) (v : Variable) : Action Unit := updateFrames (·.declare frame v)

/-- Declares a type in a frame. -/
def declareType (frame : FrameId) (name : String) (type : TypeId) (span : Span) : Action Unit :=
  updateFrames (·.declareType frame name type span)

/-- The text of a type. -/
def textOf (type : TypeId) : Action String := fromTypes (·.text type)

end Action

end RainCheck
