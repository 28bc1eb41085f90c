import Mathlib.Data.List.Chain
import Mathlib.Logic.Relation
import RainCheck.Tree.Module

/-!
# The graph of structs

Which structs can have no fields resolved, told by the declarations alone.
* A struct depends on those that its fields contain by value (`DependsOn`); a name directly behind `&` does not count.
* It is `Doomed` if it reaches, along dependencies, one that lies on a cycle, repeats a field or names an unknown type.
* A cycle is a list of different structs, each of which contains the next one, the last one the first (`IsCycle`).

A struct is free of doom exactly when nothing is wrong with its own fields and all it depends on is free of doom.
-/

namespace RainCheck

open Relation (ReflTransGen TransGen)

/-- What the names of types mean: nothing, a type that needs no declaration, or a struct. -/
abbrev TypeScope := String → Option (Option StructDecl)

mutual

/-- The names in a type, each with whether it stands directly behind `&`. -/
def TypeExpr.occurrences (behind : Bool) : TypeExpr → List (Bool × String)
  | .named _ name => [(behind, name)]
  | .reference _ inner => inner.occurrences true
  | .function _ params returns => TypeExpr.occurrencesAll params ++ TypeExpr.optionOccurrences returns

/-- The names in types. -/
def TypeExpr.occurrencesAll : List TypeExpr → List (Bool × String)
  | [] => []
  | t :: rest => t.occurrences false ++ TypeExpr.occurrencesAll rest

/-- The names in a type that may be left out. -/
def TypeExpr.optionOccurrences : Option TypeExpr → List (Bool × String)
  | some t => t.occurrences false
  | none => []

end

/-- A name in a type: whether it stands directly behind `&`, the name, and where it stands. -/
structure TypeUse where
  behind : Bool
  name : String
  span : Span

mutual

/-- The names in a type, with where they stand. -/
def TypeExpr.uses (behind : Bool) : TypeExpr → List TypeUse
  | .named span name => [⟨behind, name, span⟩]
  | .reference _ inner => inner.uses true
  | .function _ params returns => TypeExpr.usesAll params ++ TypeExpr.optionUses returns

/-- The names in types, with where they stand. -/
def TypeExpr.usesAll : List TypeExpr → List TypeUse
  | [] => []
  | t :: rest => t.uses false ++ TypeExpr.usesAll rest

/-- The names in a type that may be left out, with where they stand. -/
def TypeExpr.optionUses : Option TypeExpr → List TypeUse
  | some t => t.uses false
  | none => []

end

mutual

private theorem TypeExpr.occurrences_eq (behind : Bool) (t : TypeExpr) :
    t.occurrences behind = (t.uses behind).map fun u => (u.behind, u.name) := by
  match t with
  | .named _ _ => rfl
  | .reference _ inner => exact TypeExpr.occurrences_eq true inner
  | .function _ params returns =>
    have hreturns : optionOccurrences returns = (optionUses returns).map fun u => (u.behind, u.name) := by
      match returns with
      | none => rfl
      | some t => exact TypeExpr.occurrences_eq false t
    rw [occurrences, uses, List.map_append, TypeExpr.occurrencesAll_eq params, hreturns]

private theorem TypeExpr.occurrencesAll_eq (ts : List TypeExpr) :
    occurrencesAll ts = (usesAll ts).map fun u => (u.behind, u.name) := by
  match ts with
  | [] => rfl
  | t :: rest => rw [occurrencesAll, usesAll, List.map_append, TypeExpr.occurrences_eq, TypeExpr.occurrencesAll_eq rest]

end

namespace StructDecl

variable {scope : TypeScope} {A B : StructDecl}

/-- A name occurs in a field of a struct, directly behind `&` or not. -/
def Mentions (A : StructDecl) (behind : Bool) (name : String) : Prop :=
  ∃ field ∈ A.fields, (behind, name) ∈ field.type.occurrences false

/-- A name stands in a field of a struct. -/
def Uses (A : StructDecl) (u : TypeUse) : Prop := ∃ field ∈ A.fields, u ∈ field.type.uses false

theorem Uses.mentions {u : TypeUse} (h : A.Uses u) : A.Mentions u.behind u.name := by
  obtain ⟨field, hfield, hu⟩ := h
  exact ⟨field, hfield, TypeExpr.occurrences_eq false field.type ▸ List.mem_map.mpr ⟨u, hu, rfl⟩⟩

/-- A struct contains another one by value. -/
def DependsOn (scope : TypeScope) (A B : StructDecl) : Prop :=
  ∃ name, A.Mentions false name ∧ scope name = some (some B)

/-- A struct contains another one by value where a name stands. -/
def DependsAt (scope : TypeScope) (A B : StructDecl) (span : Span) : Prop :=
  ∃ name, A.Uses ⟨false, name, span⟩ ∧ scope name = some (some B)

theorem DependsAt.dependsOn {span : Span} (h : A.DependsAt scope B span) : A.DependsOn scope B := by
  obtain ⟨name, huses, hscope⟩ := h
  exact ⟨name, huses.mentions, hscope⟩

/-- A struct contains itself, perhaps through others. -/
def OnCycle (scope : TypeScope) (A : StructDecl) : Prop := TransGen (DependsOn scope) A A

/-- Two fields of a struct have the same name. -/
def RepeatsField (A : StructDecl) : Prop := ¬(A.fields.map (·.name)).Nodup

/-- A field of a struct names a type that is not in scope. -/
def MentionsUnknown (scope : TypeScope) (A : StructDecl) : Prop :=
  ∃ behind name, A.Mentions behind name ∧ scope name = none

/-- A struct reaches one with which something is wrong. -/
def Doomed (scope : TypeScope) (A : StructDecl) : Prop :=
  ∃ B, ReflTransGen (DependsOn scope) A B ∧ (B.OnCycle scope ∨ B.RepeatsField ∨ B.MentionsUnknown scope)

/-- Different structs, each of which contains the next one by value, the last one the first where a name stands. -/
structure IsCycle (scope : TypeScope) (first : StructDecl) (rest : List StructDecl) (span : Span) : Prop where
  chain : (first :: rest).IsChain (DependsOn scope)
  nodup : (first :: rest).Nodup
  back : ∀ last ∈ (first :: rest).getLast?, last.DependsAt scope first span

theorem IsCycle.onCycle {rest : List StructDecl} {span : Span} (h : IsCycle scope A rest span) : A.OnCycle scope := by
  have hlast : (A :: rest).getLast (List.cons_ne_nil A rest) ∈ (A :: rest).getLast? := List.getLast_mem_getLast? _
  have hreach := List.relationReflTransGen_of_exists_isChain_cons rest h.chain rfl
  exact .tail' hreach (h.back _ hlast).dependsOn

theorem Doomed.step (hdep : A.DependsOn scope B) (h : B.Doomed scope) : A.Doomed scope := by
  obtain ⟨C, hreach, hwrong⟩ := h
  exact ⟨C, .head hdep hreach, hwrong⟩

theorem Doomed.of_cycle (hdep : A.DependsOn scope B) (hback : ReflTransGen (DependsOn scope) B A) : A.Doomed scope :=
  ⟨A, .refl, .inl (TransGen.head' hdep hback)⟩

theorem not_doomed (hrepeats : ¬A.RepeatsField) (hunknown : ¬A.MentionsUnknown scope)
    (hdeps : ∀ B, A.DependsOn scope B → ¬B.Doomed scope) : ¬A.Doomed scope := by
  rintro ⟨C, hreach, hwrong⟩
  rcases ReflTransGen.cases_head hreach with rfl | ⟨B, hdep, hreach⟩
  · rcases hwrong with hcycle | hwrong | hwrong
    · -- the next struct on the cycle lies on it too
      obtain ⟨B, hdep, hback⟩ := TransGen.head'_iff.mp hcycle
      exact hdeps B hdep ⟨B, .refl, .inl (TransGen.tail' hback hdep)⟩
    · exact hrepeats hwrong
    · exact hunknown hwrong
  · exact hdeps B hdep ⟨C, hreach, hwrong⟩

end StructDecl

end RainCheck
