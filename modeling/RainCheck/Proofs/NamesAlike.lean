import RainCheck.Proofs.RelocatedModules
import RainCheck.Proofs.Signatures

/-!
# Scopes that mean the same

Two scopes in which names mean structs that are written the same (`TypeScope.Alike`).  In both of them
* (terms) a written type stands for the same;
* (structs) the same structs are doomed, as a dependency in one scope is one in the other;
* (functions) the same types of functions are resolved.
So much holds of two modules in which each name is that of declarations that match (`NamesAlike`).
-/

namespace RainCheck

open RainCheck.Action
open Relation (ReflTransGen TransGen)

/-- Structs with the same name, whose fields have the same names and name the same types. -/
structure StructDecl.Alike (A A' : StructDecl) : Prop where
  name : A'.name = A.name
  fields : A'.fields.map (·.name) = A.fields.map (·.name)
  occurrences : A'.fields.map (·.type.occurrences false) = A.fields.map (·.type.occurrences false)

/-- Scopes in which names mean structs that are alike. -/
def TypeScope.Alike (σ σ' : TypeScope) : Prop := ∀ name, Option.Rel (Option.Rel StructDecl.Alike) (σ name) (σ' name)

/-! ### Written types -/

mutual

/-- The same names occur in one type at two places. -/
private theorem TypeExpr.Matches.occurrences {R : Span → Span → Prop} {t t' : TypeExpr}
    (h : t.Matches R t') (behind : Bool) :
    t'.occurrences behind = t.occurrences behind := by
  match t with
  | .named .. =>
    cases h
    rfl
  | .reference _ inner => cases h with | reference _ ht => exact TypeExpr.Matches.occurrences ht true
  | .function _ params returns =>
    cases h with
    | function _ hps hr =>
      rw [TypeExpr.occurrences, TypeExpr.occurrences, TypeExpr.Matches.occurrencesAll hps,
        TypeExpr.Matches.optionOccurrences hr]

private theorem TypeExpr.Matches.occurrencesAll {R : Span → Span → Prop} {ts ts' : List TypeExpr}
    (h : List.Forall₂ (TypeExpr.Matches R) ts ts') : TypeExpr.occurrencesAll ts' = TypeExpr.occurrencesAll ts := by
  match ts with
  | [] =>
    cases h
    rfl
  | t :: rest =>
    cases h with
    | cons ht hrest =>
      rw [TypeExpr.occurrencesAll, TypeExpr.occurrencesAll, TypeExpr.Matches.occurrences ht,
        TypeExpr.Matches.occurrencesAll hrest]

private theorem TypeExpr.Matches.optionOccurrences {R : Span → Span → Prop} {t t' : Option TypeExpr}
    (h : Option.Rel (TypeExpr.Matches R) t t') : TypeExpr.optionOccurrences t' = TypeExpr.optionOccurrences t := by
  match t with
  | none =>
    cases h
    rfl
  | some t => cases h with | some ht => exact TypeExpr.Matches.occurrences ht false

end

theorem Prototype.Matches.occurrences {R : Span → Span → Prop} {p p' : Prototype} (h : p.Matches R p') :
    p'.occurrences = p.occurrences := by
  rw [Prototype.occurrences, Prototype.occurrences, TypeExpr.Matches.occurrencesAll h.params,
    TypeExpr.Matches.optionOccurrences h.returns]

theorem StructDecl.Matches.alike {R : Span → Span → Prop} {A A' : StructDecl} (h : A.Matches R A') : A.Alike A' where
  name := h.name
  fields := by
    have hnames : List.Forall₂ Eq (A.fields.map (·.name)) (A'.fields.map (·.name)) :=
      List.rel_map (fun _ _ hf => hf.name.symm) h.fields
    rw [List.forall₂_eq_eq_eq] at hnames
    exact hnames.symm
  occurrences := by
    have hnames :
        List.Forall₂ Eq (A.fields.map (·.type.occurrences false)) (A'.fields.map (·.type.occurrences false)) :=
      List.rel_map (fun _ _ hf => (hf.type.occurrences false).symm) h.fields
    rw [List.forall₂_eq_eq_eq] at hnames
    exact hnames.symm

section

variable {σ σ' : TypeScope} {R : Span → Span → Prop}

mutual

/-- A written type stands for the same in both scopes. -/
theorem TypeExpr.Matches.term (hσ : σ.Alike σ') {t t' : TypeExpr} (h : t.Matches R t') : t'.term σ' = t.term σ := by
  match t with
  | .named _ name =>
    cases h
    have hname := hσ name
    rw [TypeExpr.term, TypeExpr.term]
    generalize σ name = o at hname
    generalize σ' name = o' at hname
    cases hname with
    | none => rfl
    | some hd =>
      cases hd with
      | none => rfl
      | some hd => exact congrArg TypeTerm.struct hd.name
  | .reference _ inner =>
    cases h with
    | reference _ ht => rw [TypeExpr.term, TypeExpr.term, TypeExpr.Matches.term hσ ht]
  | .function _ params returns =>
    cases h with
    | function _ hps hr =>
      rw [TypeExpr.term, TypeExpr.term, TypeExpr.Matches.termsAll hσ hps, TypeExpr.Matches.termReturns hσ hr]

private theorem TypeExpr.Matches.termsAll (hσ : σ.Alike σ') {ts ts' : List TypeExpr}
    (h : List.Forall₂ (TypeExpr.Matches R) ts ts') :
    TypeExpr.termsAll σ' ts' = TypeExpr.termsAll σ ts := by
  match ts with
  | [] =>
    cases h
    rfl
  | t :: rest =>
    cases h with
    | cons ht hrest =>
      rw [TypeExpr.termsAll, TypeExpr.termsAll, TypeExpr.Matches.term hσ ht, TypeExpr.Matches.termsAll hσ hrest]

private theorem TypeExpr.Matches.termReturns (hσ : σ.Alike σ') {t t' : Option TypeExpr}
    (h : Option.Rel (TypeExpr.Matches R) t t') :
    TypeExpr.termReturns σ' t' = TypeExpr.termReturns σ t := by
  match t with
  | none =>
    cases h
    rfl
  | some t => cases h with | some ht => exact TypeExpr.Matches.term hσ ht

end

theorem Prototype.Matches.term (hσ : σ.Alike σ') {p p' : Prototype} (h : p.Matches R p') : p'.term σ' = p.term σ := by
  rw [Prototype.term, Prototype.term, TypeExpr.Matches.termsAll hσ h.params, TypeExpr.Matches.termReturns hσ h.returns]

end

/-! ### Doomed structs -/

namespace StructDecl

variable {σ σ' : TypeScope} {A A' B : StructDecl}

protected theorem Alike.refl (A : StructDecl) : A.Alike A := ⟨rfl, rfl, rfl⟩

private theorem Alike.symm (h : A.Alike A') : A'.Alike A := ⟨h.name.symm, h.fields.symm, h.occurrences.symm⟩

private theorem Alike.mentions (h : A.Alike A') {behind : Bool} {name : String} (hname : A.Mentions behind name) :
    A'.Mentions behind name := by
  obtain ⟨field, hfield, hoccurs⟩ := hname
  obtain ⟨field', hfield', heq⟩ := List.mem_map.mp (h.occurrences ▸ List.mem_map_of_mem hfield)
  exact ⟨field', hfield', by rwa [heq]⟩

end StructDecl

private theorem TypeScope.Alike.symm {σ σ' : TypeScope} (h : σ.Alike σ') : σ'.Alike σ := by
  intro name
  have hname := h name
  generalize σ name = o at hname
  generalize σ' name = o' at hname
  cases hname with
  | none => exact .none
  | some hd =>
    cases hd with
    | none => exact .some .none
    | some hd => exact .some (.some hd.symm)

namespace TypeScope.Alike

variable {σ σ' : TypeScope} (hσ : σ.Alike σ') {A A' B B' : StructDecl}

include hσ

private theorem struct {name : String} (h : σ name = some (some A)) : ∃ A', σ' name = some (some A') ∧ A.Alike A' := by
  have hname := hσ name
  rw [h] at hname
  generalize σ' name = o at hname
  cases hname with
  | some hd => cases hd with | some hd => exact ⟨_, rfl, hd⟩

/-- What a struct reaches has a counterpart that is reached in the other scope. -/
private theorem reaches (hA : A.Alike A') (h : ReflTransGen (StructDecl.DependsOn σ) A B) :
    ∃ B', ReflTransGen (StructDecl.DependsOn σ') A' B' ∧ B.Alike B' := by
  induction h with
  | refl => exact ⟨A', .refl, hA⟩
  | tail _ hdep ih =>
    obtain ⟨C', hreach, hC⟩ := ih
    obtain ⟨name, hname, hmeans⟩ := hdep
    obtain ⟨B', hmeans', hB⟩ := hσ.struct hmeans
    exact ⟨B', hreach.tail ⟨name, hC.mentions hname, hmeans'⟩, hB⟩

/-- Behind the counterpart of a struct on a cycle there is a struct on a cycle. -/
private theorem reaches_cycle (hB : B.Alike B') (h : B.OnCycle σ) :
    ∃ C', ReflTransGen (StructDecl.DependsOn σ') B' C' ∧ C'.OnCycle σ' := by
  obtain ⟨C, hreach, name, hname, hmeans⟩ := TransGen.tail'_iff.mp h
  -- once around, the name at the end of the cycle means the same struct
  obtain ⟨D, hmeans', hD⟩ := hσ.struct hmeans
  have haround : ∀ {D' : StructDecl}, B.Alike D' → TransGen (StructDecl.DependsOn σ') D' D := by
    intro D' hD'
    obtain ⟨C', hreach', hC⟩ := hσ.reaches hD' hreach
    exact .tail' hreach' ⟨name, hC.mentions hname, hmeans'⟩
  exact ⟨D, (haround hB).to_reflTransGen, haround hD⟩

private theorem doomed (hA : A.Alike A') (h : A.Doomed σ) : A'.Doomed σ' := by
  obtain ⟨B, hreach, hwrong⟩ := h
  obtain ⟨B', hreach', hB⟩ := hσ.reaches hA hreach
  rcases hwrong with hcycle | hrepeats | ⟨behind, name, hname, hmeans⟩
  · obtain ⟨C', hreach'', hcycle'⟩ := hσ.reaches_cycle hB hcycle
    exact ⟨C', hreach'.trans hreach'', .inl hcycle'⟩
  · refine ⟨B', hreach', .inr (.inl ?_)⟩
    rwa [StructDecl.RepeatsField, hB.fields]
  · have hother := hσ name
    rw [hmeans] at hother
    generalize hmeans' : σ' name = o at hother
    cases hother
    exact ⟨B', hreach', .inr (.inr ⟨behind, name, hB.mentions hname, hmeans'⟩)⟩

/-- Structs that are alike are doomed in both scopes or in none. -/
theorem doomed_iff (hA : A.Alike A') : A'.Doomed σ' ↔ A.Doomed σ := ⟨hσ.symm.doomed hA.symm, hσ.doomed hA⟩

end TypeScope.Alike

/-! ### Names of modules -/

/-- Each name is that of declarations that are related. -/
def NamesAlike (R : Decl → Decl → Prop) (decls decls' : List Decl) : Prop :=
  ∀ name, Option.Rel R (decls.find? (·.name = name)) (decls'.find? (·.name = name))

namespace NamesAlike

variable {R S : Decl → Decl → Prop} {decls decls' : List Decl} {d d' : Decl}

theorem imp (h : NamesAlike R decls decls') (hRS : ∀ d ∈ decls, ∀ d' ∈ decls', R d d' → S d d') :
    NamesAlike S decls decls' := by
  intro name
  have hrel := h name
  generalize hd : decls.find? (·.name = name) = o at hrel
  generalize hd' : decls'.find? (·.name = name) = o' at hrel
  cases hrel with
  | none => exact .none
  | some hrel => exact .some (hRS _ (List.mem_of_find?_eq_some hd) _ (List.mem_of_find?_eq_some hd') hrel)

/-- Declarations that have one name are related. -/
theorem rel (h : NamesAlike R decls decls') (hd : d.Owns decls) (hd' : d'.Owns decls') (hname : d'.name = d.name) :
    R d d' := by
  have hrel := h d.name
  rw [show decls.find? (·.name = d.name) = some d from hd, ← hname,
    show decls'.find? (·.name = d'.name) = some d' from hd'] at hrel
  cases hrel with
  | some hrel => exact hrel

/-- A declaration has a counterpart with its name in the other module. -/
theorem exists_right (h : NamesAlike R decls decls') (hd : d.Owns decls) : ∃ d', d'.Owns decls' ∧ R d d' := by
  have hrel := h d.name
  rw [show decls.find? (·.name = d.name) = some d from hd] at hrel
  generalize hfind : decls'.find? (·.name = d.name) = o at hrel
  cases hrel with
  | @some _ d' hrel =>
    have hname : d'.name = d.name := by simpa using List.find?_some hfind
    exact ⟨d', by rwa [← hname] at hfind, hrel⟩

theorem exists_left (h : NamesAlike R decls decls') (hd' : d'.Owns decls') : ∃ d, d.Owns decls ∧ R d d' := by
  have hrel := h d'.name
  rw [show decls'.find? (·.name = d'.name) = some d' from hd'] at hrel
  generalize hfind : decls.find? (·.name = d'.name) = o at hrel
  cases hrel with
  | @some d _ hrel =>
    have hname : d.name = d'.name := by simpa using List.find?_some hfind
    exact ⟨d, by rwa [← hname] at hfind, hrel⟩

variable {m : Matching} (h : NamesAlike (Decl.HeadMatches m) decls decls')

include h

theorem scope : TypeScope.Alike (moduleScope decls) (moduleScope decls') := by
  intro name
  have hname := h name
  rw [moduleScope, moduleScope]
  generalize decls.find? (·.name = name) = o at hname
  generalize decls'.find? (·.name = name) = o' at hname
  have hbuiltin : Option.Rel (Option.Rel StructDecl.Alike) ((Frames.builtinTypes.lookup name).map fun _ => none)
      ((Frames.builtinTypes.lookup name).map fun _ => none) := .refl (fun d => .refl StructDecl.Alike.refl d) _
  cases hname with
  | none => exact hbuiltin
  | some hd =>
    cases hd with
    | struct hd => exact .some (.some hd.alike)
    | function => exact hbuiltin

/-- The same names are fine in both modules. -/
theorem fine_iff {names : List (Bool × String)} :
    Fine (moduleListing decls') names ↔ Fine (moduleListing decls) names := by
  have hone : ∀ {σ σ' : TypeScope}, σ.Alike σ' → ∀ n : Bool × String,
      (σ n.2 ≠ none ∧ (n.1 = false → ∀ B, σ n.2 = some (some B) → ¬B.Doomed σ)) →
        σ' n.2 ≠ none ∧ (n.1 = false → ∀ B, σ' n.2 = some (some B) → ¬B.Doomed σ') := by
    rintro σ σ' hσ n ⟨hknown, hfree⟩
    refine ⟨fun hnone => ?_, fun hvalue B hB hdoomed => ?_⟩
    · have hname := hσ n.2
      rw [hnone] at hname
      generalize σ n.2 = o at hname hknown
      cases hname
      exact hknown rfl
    · obtain ⟨A, hA, halike⟩ := hσ.symm.struct hB
      exact hfree hvalue A hA (hσ.symm.doomed halike hdoomed)
  exact ⟨fun hfine _ n hn => hone h.scope.symm n (hfine trivial n hn),
    fun hfine _ n hn => hone h.scope n (hfine trivial n hn)⟩

end NamesAlike

end RainCheck
