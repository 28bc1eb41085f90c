import RainCheck.Check.Expr
import RainCheck.Parse.Module

/-!
# Compiling modules

A module is checked in four phases, each over all declarations in their order: names are registered, structs are
resolved, the types of functions are resolved, bodies are checked.
* A declaration that fails in a phase is left out of the later ones.
* A problem is reported once, even if several declarations fail because of it.
* The options may ask to end with the first problem.
-/

namespace RainCheck

/-- A file that could be read, and what is known about it. -/
structure Module where
  file : SourceFile
  decls : List Decl
  store : Store := {}

/-- How an action on a store ends. -/
structure Outcome (α : Type) where
  result : Except Stop α
  store : Store

/-- Runs an action on a store. -/
def Action.runOn {α : Type} (a : Action α) (store : Store) : Outcome α :=
  let (result, store) := a.run store
  ⟨result, store⟩

/-- The phases of a compilation. -/
inductive Phase where
  | registration
  | structs
  | signatures
  | bodies
  deriving DecidableEq, Repr

namespace Phase

/-- The phases in their order. -/
def all : List Phase := [.registration, .structs, .signatures, .bodies]

/-- Registers the name of a declaration. -/
def register (frame : FrameId) : Decl → Action Unit
  | .struct d => Action.registerStruct frame d
  | .function d => Action.registerFunction frame d.header

/-- Resolves the type of a function. -/
def resolveFunction (frame : FrameId) (f : FunctionDecl) : Action TypeId :=
  Action.resolveSignature frame f.header.span f.header.prototype

/-- Checks the body of a function. -/
def checkBody (options : Options) (frame : FrameId) (f : FunctionDecl) (store : Store) : FunctionDecl × Outcome Unit :=
  let (f, s) := f.check options frame store
  let result :=
    match s.stop with
    | some stop => .error stop
    | none => .ok ()
  (f, ⟨result, s.store⟩)

/-- Applies a phase to a declaration of the module. -/
def apply (phase : Phase) (options : Options) (decl : Decl) (store : Store) : Decl × Outcome Unit :=
  match phase, decl with
  | .registration, d => (d, (register FrameId.module d).runOn store)
  | .structs, .struct d => (.struct d, (discard (Action.resolveStruct FrameId.module d)).runOn store)
  | .signatures, .function f => (.function f, (discard (resolveFunction FrameId.module f)).runOn store)
  | .bodies, .function f =>
    let (f, outcome) := checkBody options FrameId.module f store
    (.function f, outcome)
  | _, d => (d, ⟨.ok (), store⟩)

end Phase

/-- A declaration, and whether it has failed. -/
structure Item where
  decl : Decl
  failed : Bool := false

/-- The state of a compilation besides its declarations. -/
structure Progress where
  store : Store
  errors : List Diagnostic := []
  /-- Nothing more is attempted. -/
  halted : Bool := false

/-- Reports a problem, unless it is reported already. -/
def Progress.report (p : Progress) (d : Diagnostic) : Progress :=
  if p.errors.contains d then p else { p with errors := p.errors ++ [d] }

namespace Phase

/-- Applies a phase to the declarations that have not failed. -/
def run (phase : Phase) (options : Options) : List Item → Progress → Except Fault (List Item × Progress)
  | [], p => .ok ([], p)
  | item :: rest, p =>
    if p.halted || item.failed then do
      let (rest, p) ← run phase options rest p
      return (item :: rest, p)
    else
      match phase.apply options item.decl p.store with
      | (decl, ⟨.ok (), store⟩) => do
        let (rest, p) ← run phase options rest { p with store }
        return ({ item with decl } :: rest, p)
      | (decl, ⟨.error (.refused d), store⟩) => do
        let p := { p.report d with store, halted := !options.continueOnError }
        let (rest, p) ← run phase options rest p
        return (⟨decl, true⟩ :: rest, p)
      | (_, ⟨.error (.fault f), _⟩) => .error f

/-- Applies phases one after the other. -/
def runAll (options : Options) : List Phase → List Item → Progress → Except Fault (List Item × Progress)
  | [], items, p => .ok (items, p)
  | phase :: rest, items, p => do
    let (items, p) ← phase.run options items p
    runAll options rest items p

end Phase

/-- Compiles a module, and gives the problems in the order in which they are found. -/
def Module.compile (options : Options) (m : Module) : Except Fault (Module × List Diagnostic) := do
  let (items, p) ← Phase.runAll options Phase.all (m.decls.map ({ decl := · })) { store := m.store }
  return ({ m with decls := items.map (·.decl), store := p.store }, p.errors)

/-- A compiled file: its module, if it could be read, and its problems. -/
structure CompiledUnit where
  file : SourceFile
  module : Option Module
  errors : List Diagnostic

namespace CompiledUnit

/-- Whether a file has no problems. -/
def ok (u : CompiledUnit) : Bool := u.errors.isEmpty

/-- The texts of the problems of a file. -/
def errorTexts (u : CompiledUnit) : List String := u.errors.map (·.text u.file)

end CompiledUnit

/-- Compiles a file. -/
def SourceFile.compile (options : Options) (file : SourceFile) : Except Fault CompiledUnit :=
  match file.declarations with
  | .error (.fault f) => .error f
  | .error (.refused d) => .ok ⟨file, none, [d]⟩
  | .ok decls => do
    let (module, errors) ← Module.compile options { file, decls }
    return ⟨file, some module, errors⟩

/-- Compiles files independently of each other. -/
def compileAll (options : Options) (files : List SourceFile) : Except Fault (List CompiledUnit) :=
  files.mapM (·.compile options)

end RainCheck
