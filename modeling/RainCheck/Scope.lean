import RainCheck.Types

/-!
# Frames

A `Frame` holds the names declared in one place: variables and types, each in the order of their declaration.  All
frames are kept in one list, and a frame knows the chain of frames around it, nearest first.
* A name can be declared once in a frame, as a variable or as a type.
* A lookup takes the nearest frame that has the name.
* The exported names have a frame of their own, which is around no other.
-/

namespace RainCheck

/-- The names declared in one place. -/
structure Frame where
  /-- The frames around this one, nearest first. -/
  outer : List FrameId := []
  values : List (String × Variable) := []
  types : List (String × TypeId) := []

namespace Frame

/-- The variable with a name. -/
def findVariable (f : Frame) (name : String) : Option Variable := f.values.lookup name

/-- The type with a name. -/
def findType (f : Frame) (name : String) : Option TypeId := f.types.lookup name

/-- Whether a name is declared in a frame. -/
def has (f : Frame) (name : String) : Bool := (f.findVariable name).isSome || (f.findType name).isSome

end Frame

namespace FrameId

/-- The frame of the primitive types. -/
def builtin : FrameId := 0

/-- The frame of the declarations of the module. -/
def module : FrameId := 1

/-- The frame of the exported declarations. -/
def exported : FrameId := 2

end FrameId

/-- All frames. -/
structure Frames where
  frames : List Frame

namespace Frames

/-- The types that can be named everywhere. -/
def builtinTypes : List (String × TypeId) :=
  [("void", TypeId.void), ("bool", TypeId.bool), ("i32", TypeId.i32), ("i64", TypeId.i64), ("f32", TypeId.f32),
    ("f64", TypeId.f64)]

/-- The frames of a module in which nothing is declared. -/
def initial : Frames := ⟨[{ types := builtinTypes }, { outer := [FrameId.builtin] }, {}]⟩

/-- The number of frames. -/
def size (fs : Frames) : Nat := fs.frames.length

/-- The frame with a number. -/
def get (fs : Frames) (id : FrameId) : Except Fault Frame := itemAt fs.frames id

/-- Adds an empty frame inside another one. -/
def nest (fs : Frames) (id : FrameId) : Except Fault (FrameId × Frames) := do
  let outer := id :: (← fs.get id).outer
  return (fs.size, ⟨fs.frames ++ [{ outer := outer }]⟩)

/-- The numbers of a frame and of those around it, nearest first. -/
def chain (fs : Frames) (id : FrameId) : Except Fault (List FrameId) := do
  return id :: (← fs.get id).outer

/-- The first entry that a search finds in the frames with the given numbers. -/
def searchIn {α : Type} (fs : Frames) (find : Frame → Option α) : List FrameId → Except Fault (Option α)
  | [] => .ok none
  | id :: outer => do
    match find (← fs.get id) with
    | some a => return some a
    | none => searchIn fs find outer

/-- The nearest entry that a search finds in a frame and those around it. -/
def search {α : Type} (fs : Frames) (find : Frame → Option α) (id : FrameId) : Except Fault (Option α) := do
  fs.searchIn find (← fs.chain id)

/-- The variable that a name means in a frame. -/
def lookup (fs : Frames) (id : FrameId) (name : String) : Except Fault (Option Variable) :=
  fs.search (·.findVariable name) id

/-- The type that a name means in a frame. -/
def lookupType (fs : Frames) (id : FrameId) (name : String) : Except Fault (Option TypeId) :=
  fs.search (·.findType name) id

/-- Declares a variable in a frame, whose name must be new there. -/
def declare (fs : Frames) (id : FrameId) (v : Variable) : Except Stop Frames := do
  let frame ← Stop.lift (fs.get id)
  if frame.has v.name then .error (.refused ⟨v.span, .duplicateDeclaration v.name⟩)
  else return ⟨fs.frames.set id { frame with values := frame.values ++ [(v.name, v)] }⟩

/-- Declares a type in a frame, whose name must be new there. -/
def declareType (fs : Frames) (id : FrameId) (name : String) (type : TypeId) (span : Span) : Except Stop Frames := do
  let frame ← Stop.lift (fs.get id)
  if frame.has name then .error (.refused ⟨span, .duplicateDeclaration name⟩)
  else return ⟨fs.frames.set id { frame with types := frame.types ++ [(name, type)] }⟩

/-- The variables of a frame, in the order of their declaration. -/
def variablesOf (fs : Frames) (id : FrameId) : Except Fault (List Variable) := do
  return (← fs.get id).values.map (·.2)

/-- The exported variables. -/
def exports (fs : Frames) : Except Fault (List Variable) := fs.variablesOf FrameId.exported

/-- The exported types. -/
def exportedTypes (fs : Frames) : Except Fault (List (String × TypeId)) := do
  return (← fs.get FrameId.exported).types

end Frames

end RainCheck
