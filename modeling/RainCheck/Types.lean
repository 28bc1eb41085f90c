import RainCheck.Diagnostic
import RainCheck.Stack
import RainCheck.Tree.Module

/-!
# The list of types

`Types` lists all types that a module uses.  A type is known by its position, its `TypeId`, so two types are equal
exactly when their positions are.
* The primitive types come first.
* References and function types are added once: asking for one again gives the same position.
* A struct is added when it is declared; its fields are filled in later, and `StructState` says how far this has got.
-/

namespace RainCheck

namespace TypeId

/-- The type of expressions without a value. -/
def void : TypeId := 0

/-- The type of expressions that do not complete.  It cannot be written, and can stand for every type. -/
def never : TypeId := 1

/-- The type of truth values. -/
def bool : TypeId := 2

/-- The type of 32-bit integers. -/
def i32 : TypeId := 3

/-- The type of 64-bit integers. -/
def i64 : TypeId := 4

/-- The type of single precision numbers. -/
def f32 : TypeId := 5

/-- The type of double precision numbers. -/
def f64 : TypeId := 6

/-- Whether a type is one of the integer types. -/
def isInteger (id : TypeId) : Bool := id = i32 || id = i64

/-- Whether a type is one of the floating point types. -/
def isFloat (id : TypeId) : Bool := id = f32 || id = f64

/-- Whether a type is one of the number types. -/
def isNumeric (id : TypeId) : Bool := isInteger id || isFloat id

end TypeId

/-- The type of a constant value. -/
def Value.type : Value → TypeId
  | .i32 _ => TypeId.i32
  | .i64 _ => TypeId.i64
  | .bool _ => TypeId.bool
  | .f32 _ => TypeId.f32
  | .f64 _ => TypeId.f64

/-- How far the fields of a struct are resolved. -/
inductive StructState where
  | unresolved
  | resolving
  | resolved (fields : List (String × TypeId))
  | failed (why : Diagnostic)

/-- The fields of a struct, which has none before it is resolved. -/
def StructState.fields : StructState → List (String × TypeId)
  | .resolved fields => fields
  | _ => []

/-- A type. -/
inductive TypeEntry where
  | primitive (name : String)
  | struct (decl : StructDecl) (state : StructState)
  | reference (inner : TypeId)
  | function (params : List TypeId) (returns : TypeId)

namespace TypeEntry

/-- Whether an entry is the reference to a type. -/
def isReferenceTo (inner : TypeId) : TypeEntry → Bool
  | .reference i => i = inner
  | _ => false

/-- Whether an entry is the type of functions with these parameters and this result. -/
def isFunctionOf (params : List TypeId) (returns : TypeId) : TypeEntry → Bool
  | .function ps r => ps = params && r = returns
  | _ => false

/-- The declaration and the state of a struct. -/
def struct? : TypeEntry → Option (StructDecl × StructState)
  | .struct decl state => some (decl, state)
  | _ => none

/-- The parameters and the result of a function type. -/
def function? : TypeEntry → Option (List TypeId × TypeId)
  | .function params returns => some (params, returns)
  | _ => none

/-- The type behind a reference. -/
def inner? : TypeEntry → Option TypeId
  | .reference inner => some inner
  | _ => none

end TypeEntry

/-- All types, and the structs whose fields are being resolved, innermost last. -/
structure Types where
  entries : List TypeEntry
  resolving : Stack TypeId := {}

namespace Types

/-- The primitive types, by name. -/
def primitives : List String := ["void", "never", "bool", "i32", "i64", "f32", "f64"]

/-- The list with the primitive types only. -/
def initial : Types := { entries := primitives.map .primitive }

/-- The number of types. -/
def size (ts : Types) : Nat := ts.entries.length

/-- The type at a position. -/
def get (ts : Types) (id : TypeId) : Except Fault TypeEntry := itemAt ts.entries id

/-- Adds a type at the end. -/
def add (ts : Types) (entry : TypeEntry) : TypeId × Types :=
  (ts.size, { ts with entries := ts.entries ++ [entry] })

/-- The position of the first type with a property; if there is none, `entry` is added. -/
def intern (ts : Types) (p : TypeEntry → Bool) (entry : TypeEntry) : TypeId × Types :=
  match ts.entries.findIdx? p with
  | some id => (id, ts)
  | none => ts.add entry

/-- The reference to a type. -/
def reference (ts : Types) (inner : TypeId) : TypeId × Types :=
  ts.intern (TypeEntry.isReferenceTo inner) (.reference inner)

/-- The type of functions with given parameters and result. -/
def functionOf (ts : Types) (params : List TypeId) (returns : TypeId) : TypeId × Types :=
  ts.intern (TypeEntry.isFunctionOf params returns) (.function params returns)

/-- Adds a struct, whose fields are not resolved yet. -/
def addStruct (ts : Types) (decl : StructDecl) : TypeId × Types := ts.add (.struct decl .unresolved)

/-- Changes the state of a struct. -/
def setState (ts : Types) (id : TypeId) (state : StructState) : Types :=
  { ts with
    entries := ts.entries.modify id fun
      | .struct decl _ => .struct decl state
      | entry => entry }

/-- The type behind a reference; other types stand for themselves. -/
def load (ts : Types) (id : TypeId) : Except Fault TypeId := do
  return (← ts.get id).inner?.getD id

/-- Whether a type is a reference. -/
def isReference (ts : Types) (id : TypeId) : Except Fault Bool := do
  return (← ts.get id).inner?.isSome

/--
Whether a value of one type can stand where another type is expected: the types are equal, or it is never there, or it
is a reference to the expected type.
-/
def assignable (ts : Types) (source target : TypeId) : Except Fault Bool :=
  if source = target || source = TypeId.never then .ok true
  else do
    return (← ts.get source).inner? = some target

/-- The text of a function type, from the texts of its parts; a result without a value is left out. -/
def functionText (params : List String) (returns : Option String) : String :=
  "fn(" ++ ", ".intercalate params ++ ")" ++
    match returns with
    | some text => " -> " ++ text
    | none => ""

/-- The text of a type that is nested at most `depth` levels deep. -/
def textWithin (ts : Types) : (depth : Nat) → TypeId → Except Fault String
  | 0, _ => .error .exhausted
  | depth + 1, id => do
    match ← ts.get id with
    | .primitive name => return name
    | .struct decl _ => return decl.name
    | .reference inner => return "&" ++ (← textWithin ts depth inner)
    | .function params returns =>
      let params ← params.mapM (textWithin ts depth)
      if returns = TypeId.void then return functionText params none
      else return functionText params (some (← textWithin ts depth returns))

/-- The text of a type.  Its parts were added before it, so their number bounds the depth. -/
def text (ts : Types) (id : TypeId) : Except Fault String := ts.textWithin (id + 1) id

end Types

end RainCheck
