import Mathlib.Data.List.Forall2
import RainCheck.Proofs.StructGraph
import RainCheck.Store

/-!
# What types stand for

A `TypeTerm` is a type apart from any list of types: it is made of the names of primitive types and of structs.
* A written type has a term, given what names mean (`TypeExpr.term`).
* The position of a type denotes a term, given what is listed in a store (`Store.Denotes`).  It
  denotes one term at most.
-/

namespace RainCheck

/-- A type, told by the names of primitive types and structs. -/
inductive TypeTerm where
  | primitive (name : String)
  | struct (name : String)
  | reference (inner : TypeTerm)
  | function (params : List TypeTerm) (returns : TypeTerm)

/-! ### Terms of written types -/

mutual

/-- The term of a written type.  A name that does not mean a struct is taken for that of a primitive type. -/
def TypeExpr.term (scope : TypeScope) : TypeExpr → TypeTerm
  | .named _ name =>
    match scope name with
    | some (some d) => .struct d.name
    | _ => .primitive name
  | .reference _ inner => .reference (inner.term scope)
  | .function _ params returns => .function (TypeExpr.termsAll scope params) (TypeExpr.termReturns scope returns)

/-- The terms of written types. -/
def TypeExpr.termsAll (scope : TypeScope) : List TypeExpr → List TypeTerm
  | [] => []
  | t :: rest => t.term scope :: TypeExpr.termsAll scope rest

/-- The term of the type that a function returns; without one it returns no value. -/
def TypeExpr.termReturns (scope : TypeScope) : Option TypeExpr → TypeTerm
  | some t => t.term scope
  | none => .primitive "void"

end

/-- The term of the type of a function. -/
def Prototype.term (scope : TypeScope) (p : Prototype) : TypeTerm :=
  .function (TypeExpr.termsAll scope p.params) (TypeExpr.termReturns scope p.returns)

/-! ### Terms of listed types -/

mutual

/-- A position in the list of types denotes a term.  Structs are those that are registered in the module. -/
inductive Store.Denotes (s : Store) : TypeId → TypeTerm → Prop where
  | primitive {id : TypeId} {name : String} (he : s.types.entries[id]? = some (.primitive name)) :
      Denotes s id (.primitive name)
  | struct {id : TypeId} {d : StructDecl} {state : StructState} (he : s.types.entries[id]? = some (.struct d state))
      (hr : s.structs.find? d.span = some ⟨id, FrameId.module⟩) : Denotes s id (.struct d.name)
  | reference {id t : TypeId} {inner : TypeTerm} (he : s.types.entries[id]? = some (.reference t))
      (ht : Denotes s t inner) : Denotes s id (.reference inner)
  | function {id r : TypeId} {ps : List TypeId} {params : List TypeTerm} {returns : TypeTerm}
      (he : s.types.entries[id]? = some (.function ps r)) (hps : DenotesAll s ps params) (hr : Denotes s r returns) :
      Denotes s id (.function params returns)

/-- Positions denote terms, one by one. -/
inductive Store.DenotesAll (s : Store) : List TypeId → List TypeTerm → Prop where
  | nil : DenotesAll s [] []
  | cons {id : TypeId} {ids : List TypeId} {τ : TypeTerm} {τs : List TypeTerm} (h : Denotes s id τ)
      (hs : DenotesAll s ids τs) : DenotesAll s (id :: ids) (τ :: τs)

end

/-- A store has the types and structs of another one; the state of a struct may be a different one. -/
structure Store.KeepsTypes (s s' : Store) : Prop where
  same : ∀ (id : TypeId) e, s.types.entries[id]? = some e → e.struct? = none → s'.types.entries[id]? = some e
  struct : ∀ (id : TypeId) d state, s.types.entries[id]? = some (.struct d state) →
    ∃ state', s'.types.entries[id]? = some (.struct d state')
  record : ∀ key r, s.structs.find? key = some r → s'.structs.find? key = some r

section

variable {s s' : Store}

mutual

theorem Store.Denotes.keep {id : TypeId} {τ : TypeTerm} (h : s.Denotes id τ) (hs : s.KeepsTypes s') :
    s'.Denotes id τ := by
  cases h with
  | primitive he => exact .primitive (hs.same _ _ he rfl)
  | struct he hr =>
    obtain ⟨state', he'⟩ := hs.struct _ _ _ he
    exact .struct he' (hs.record _ _ hr)
  | reference he ht => exact .reference (hs.same _ _ he rfl) (ht.keep hs)
  | function he hps hr => exact .function (hs.same _ _ he rfl) (hps.keep hs) (hr.keep hs)

theorem Store.DenotesAll.keep {ids : List TypeId} {τs : List TypeTerm} (h : s.DenotesAll ids τs)
    (hs : s.KeepsTypes s') :
    s'.DenotesAll ids τs := by
  cases h with
  | nil => exact .nil
  | cons h hrest => exact .cons (h.keep hs) (hrest.keep hs)

end

mutual

/-- A position denotes one term at most. -/
theorem Store.Denotes.unique {id : TypeId} {τ τ' : TypeTerm} (h : s.Denotes id τ) (h' : s.Denotes id τ') : τ = τ' := by
  cases h with
  | primitive he =>
    cases h' with
    | primitive he' =>
      cases he.symm.trans he'
      rfl
    | struct he' | reference he' | function he' => cases he.symm.trans he'
  | struct he =>
    cases h' with
    | struct he' =>
      cases he.symm.trans he'
      rfl
    | primitive he' | reference he' | function he' => cases he.symm.trans he'
  | reference he ht =>
    cases h' with
    | reference he' ht' =>
      cases he.symm.trans he'
      rw [ht.unique ht']
    | primitive he' | struct he' | function he' => cases he.symm.trans he'
  | function he hps hr =>
    cases h' with
    | function he' hps' hr' =>
      cases he.symm.trans he'
      rw [hps.unique hps', hr.unique hr']
    | primitive he' | struct he' | reference he' => cases he.symm.trans he'

private theorem Store.DenotesAll.unique {ids : List TypeId} {τs τs' : List TypeTerm} (h : s.DenotesAll ids τs)
    (h' : s.DenotesAll ids τs') : τs = τs' := by
  cases h with
  | nil =>
    cases h'
    rfl
  | cons h hs =>
    cases h' with
    | cons h' hs' => rw [h.unique h', hs.unique hs']

end

end

end RainCheck
