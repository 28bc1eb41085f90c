import Mathlib.Algebra.Order.BigOperators.Group.List
import Mathlib.Algebra.Order.Group.Nat
import RainCheck.Proofs.LocatingExpr

/-!
# How structs evolve

What happens to structs while declarations are treated, in whatever frames and whatever order.
* (entries) A struct is `unresolved`, then `resolving`, then `resolved` or `failed` (`StructState.Next`); of all other
  types nothing changes.
* (stores) A type is `Live` if what is asked of it is asked of the registered struct, and `Finished` if it is no struct
  or a resolved one.  In a `Coherent` store all types in use are live, what a type contains by value is finished, and
  types rank above those that they contain.
* (changes) Adding types, resolving structs and naming types in use keeps a store coherent.
-/

namespace RainCheck

open Relation (ReflTransGen)

/-! ### Entries -/

/-- What becomes of a struct in one step. -/
inductive StructState.Next : StructState → StructState → Prop where
  | start : Next .unresolved .resolving
  | finish (fields : List (String × TypeId)) : Next .resolving (.resolved fields)
  | fail (why : Diagnostic) : Next .resolving (.failed why)

/-- What becomes of an entry: a struct goes through its states, all else stays. -/
inductive TypeEntry.MovesTo : TypeEntry → TypeEntry → Prop where
  | refl (e : TypeEntry) : MovesTo e e
  | struct (decl : StructDecl) {state state' : StructState} (h : ReflTransGen StructState.Next state state') :
      MovesTo (.struct decl state) (.struct decl state')

namespace TypeEntry

/-- The types that a type contains by value: those of a function, and those of the fields of a struct. -/
def contents : TypeEntry → List TypeId
  | .function params returns => returns :: params
  | .struct _ state => state.fields.map (·.2)
  | _ => []

variable {e e' e'' : TypeEntry} {decl : StructDecl} {state : StructState}

private theorem MovesTo.trans (h : e.MovesTo e') (h' : e'.MovesTo e'') : e.MovesTo e'' := by
  cases h with
  | refl => exact h'
  | struct decl h =>
    cases h' with
    | refl => exact .struct decl h
    | struct _ h' => exact .struct decl (h.trans h')

/-- A struct comes from a struct. -/
private theorem MovesTo.from_struct (h : e.MovesTo (.struct decl state)) : ∃ old, e = .struct decl old := by
  cases h with
  | refl => exact ⟨state, rfl⟩
  | @struct _ old _ h => exact ⟨old, rfl⟩

/-- A struct that is resolved or has failed does not change. -/
theorem MovesTo.stays (h : (TypeEntry.struct decl state).MovesTo e)
    (hstate : (∃ fields, state = .resolved fields) ∨ ∃ why, state = .failed why) : e = .struct decl state := by
  cases h with
  | refl => rfl
  | struct _ h =>
    rcases h.cases_head with rfl | ⟨next, hnext, -⟩
    · rfl
    · rcases hstate with ⟨fields, rfl⟩ | ⟨why, rfl⟩ <;> cases hnext

end TypeEntry

namespace Store

variable {decls : List Decl} {s s' s'' : Store} {t u : TypeId}

/-! ### Stores -/

/-- A type that is in use: a struct is the one that its declaration is registered as. -/
def Live (s : Store) (t : TypeId) : Prop :=
  ∃ e, s.typeAt? t = some e ∧
    ∀ decl state, e = .struct decl state → (s.structs.find? decl.span).map (·.type) = some t

/-- A type that can be contained by value: if it is a struct, its fields are resolved. -/
def Finished (s : Store) (t : TypeId) : Prop :=
  s.Live t ∧ ∀ decl state, s.typeAt? t = some (.struct decl state) → ∃ fields, state = .resolved fields

/-- A store in which structs have gone on and more declarations are registered. -/
structure MovesTo (s s' : Store) : Prop where
  entries : ∀ t e, s.typeAt? t = some e → ∃ e', s'.typeAt? t = some e' ∧ e.MovesTo e'
  records : ∀ key r, s.structs.find? key = some r → s'.structs.find? key = some r

/-- A store in which structs have gone on, and those that were being resolved still are. -/
structure AdvancesTo (s s' : Store) : Prop extends s.MovesTo s' where
  resolving : s'.types.resolving = s.types.resolving

private theorem MovesTo.refl (s : Store) : s.MovesTo s := ⟨fun _ e he => ⟨e, he, .refl e⟩, fun _ _ hr => hr⟩

private theorem MovesTo.trans (h : s.MovesTo s') (h' : s'.MovesTo s'') : s.MovesTo s'' where
  entries t e he := by
    obtain ⟨e', he', hmoves⟩ := h.entries t e he
    obtain ⟨e'', he'', hmoves'⟩ := h'.entries t e' he'
    exact ⟨e'', he'', hmoves.trans hmoves'⟩
  records key r hr := h'.records key r (h.records key r hr)

/-- Types and records are all that counts. -/
theorem MovesTo.of_eq (htypes : s'.types.entries = s.types.entries) (hstructs : s'.structs = s.structs) :
    s.MovesTo s' where
  entries t e he := ⟨e, by rwa [typeAt?, htypes], .refl e⟩
  records key r hr := by rwa [hstructs]

theorem AdvancesTo.refl (s : Store) : s.AdvancesTo s := ⟨.refl s, rfl⟩

theorem AdvancesTo.trans (h : s.AdvancesTo s') (h' : s'.AdvancesTo s'') : s.AdvancesTo s'' :=
  ⟨h.toMovesTo.trans h'.toMovesTo, h'.resolving.trans h.resolving⟩

theorem AdvancesTo.of_eq (htypes : s'.types = s.types) (hstructs : s'.structs = s.structs) : s.AdvancesTo s' :=
  ⟨.of_eq (by rw [htypes]) hstructs, by rw [htypes]⟩

theorem Live.moves (h : s.Live t) (hmoves : s.MovesTo s') : s'.Live t := by
  obtain ⟨e, he, hregistered⟩ := h
  obtain ⟨e', he', hbecomes⟩ := hmoves.entries t e he
  refine ⟨e', he', ?_⟩
  rintro decl state rfl
  obtain ⟨old, rfl⟩ := hbecomes.from_struct
  obtain ⟨r, hr, rfl⟩ := Option.map_eq_some_iff.mp (hregistered decl old rfl)
  rw [hmoves.records _ r hr]
  rfl

theorem Finished.moves (h : s.Finished t) (hmoves : s.MovesTo s') : s'.Finished t := by
  refine ⟨h.1.moves hmoves, fun decl state he' => ?_⟩
  obtain ⟨e, he, -⟩ := h.1
  obtain ⟨e', he'', hbecomes⟩ := hmoves.entries t e he
  obtain rfl := Option.some.inj (he''.symm.trans he')
  obtain ⟨old, rfl⟩ := hbecomes.from_struct
  obtain ⟨fields, rfl⟩ := h.2 decl old he
  exact ⟨fields, (TypeEntry.struct.inj (hbecomes.stays (.inl ⟨fields, rfl⟩))).2⟩

theorem Live.lt_size (h : s.Live t) : t < s.types.size := by
  obtain ⟨e, he, -⟩ := h
  exact (List.getElem?_eq_some_iff.mp he).1

theorem finished_of_entry {e : TypeEntry} (he : s.typeAt? t = some e) (hstruct : e.struct? = none) : s.Finished t := by
  refine ⟨⟨e, he, ?_⟩, fun decl state he' => ?_⟩
  · rintro decl state rfl
    cases hstruct
  · rw [he] at he'
    cases he'
    cases hstruct

/-! ### Coherent stores -/

/-- What always holds of the types of a module. -/
structure TypesCoherent (decls : List Decl) (s : Store) : Prop where
  primitives : ∀ t name, Types.primitives[t]? = some name → s.typeAt? t = some (.primitive name)
  references : ∀ t inner, s.typeAt? t = some (.reference inner) → s.Live inner
  contents : ∀ t e, s.typeAt? t = some e → ∀ u ∈ e.contents, s.Finished u
  ranked : ∃ rank : TypeId → Nat, ∀ t e, s.typeAt? t = some e → ∀ u ∈ e.contents, rank u < rank t
  declared : ∀ t decl state, s.typeAt? t = some (.struct decl state) → .struct decl ∈ decls
  resolved : ∀ t decl fields, s.typeAt? t = some (.struct decl (.resolved fields)) →
    fields.map (·.1) = decl.fields.map (·.name) ∧ (fields.map (·.1)).Nodup
  resolving : ∀ t, t ∈ s.types.resolving.items ↔ ∃ decl, s.typeAt? t = some (.struct decl .resolving)
  records : ∀ key r, s.structs.find? key = some r →
    ∃ decl state, s.typeAt? r.type = some (.struct decl state) ∧ decl.span = key

/-- The types of functions and of what stands in frames are in use. -/
structure NamesLive (s : Store) : Prop where
  types : ∀ f ∈ s.frames.frames, ∀ p ∈ f.types, s.Live p.2
  values : ∀ f ∈ s.frames.frames, ∀ p ∈ f.values, ∀ t, p.2.type.value? = some t → s.Live t
  signature : ∀ key sig, (s.function key).signature = some sig → s.Live sig
  variableType : ∀ key h, (s.function key).variableType = some h → ∀ t, h.value? = some t → s.Live t

/-- What always holds of what is known about a module. -/
structure Coherent (decls : List Decl) (s : Store) : Prop where
  types : s.TypesCoherent decls
  names : s.NamesLive

private theorem NamesLive.moves (h : s.NamesLive) (hmoves : s.MovesTo s') (hframes : s'.frames = s.frames)
    (hfunctions : s'.functions = s.functions) : s'.NamesLive where
  types f hf p hp := (h.types f (hframes ▸ hf) p hp).moves hmoves
  values f hf p hp t ht := (h.values f (hframes ▸ hf) p hp t ht).moves hmoves
  signature key sig hsig := (h.signature key sig (by rwa [function, hfunctions] at hsig)).moves hmoves
  variableType key v hv t ht := (h.variableType key v (by rwa [function, hfunctions] at hv) t ht).moves hmoves

private theorem TypesCoherent.of_eq (h : s.TypesCoherent decls) (htypes : s'.types = s.types)
    (hstructs : s'.structs = s.structs) :
    s'.TypesCoherent decls := by
  obtain ⟨types, frames, functions, structs⟩ := s
  obtain ⟨types', frames', functions', structs'⟩ := s'
  obtain rfl : types' = types := htypes
  obtain rfl : structs' = structs := hstructs
  exact ⟨h.primitives, h.references, h.contents, h.ranked, h.declared, h.resolved, h.resolving, h.records⟩

theorem TypesCoherent.primitive (h : s.TypesCoherent decls) {name : String} (ht : Types.primitives[t]? = some name) :
    s.Live t :=
  (finished_of_entry (h.primitives t name ht) rfl).1

/-- Rank numbers fit on if one type is changed that no other one contains. -/
private theorem ranked_change (t : TypeId) (new : List TypeId)
    (h : ∃ rank : TypeId → Nat, ∀ u e, s.typeAt? u = some e → ∀ v ∈ e.contents, rank v < rank u)
    (hcontained : ∀ u e, s.typeAt? u = some e → t ∉ e.contents) (hnew : t ∉ new)
    (hentries : ∀ u e, s'.typeAt? u = some e → u = t ∧ e.contents = new ∨ u ≠ t ∧ s.typeAt? u = some e) :
    ∃ rank : TypeId → Nat, ∀ u e, s'.typeAt? u = some e → ∀ v ∈ e.contents, rank v < rank u := by
  obtain ⟨rank, hrank⟩ := h
  refine ⟨fun u => if u = t then (new.map rank).sum + 1 else rank u, fun u e he v hv => ?_⟩
  rcases hentries u e he with ⟨rfl, rfl⟩ | ⟨hu, he⟩
  · have hvu : v ≠ u := fun heq => hnew (heq ▸ hv)
    simp only [hvu, if_false, if_true]
    exact Nat.lt_succ_of_le (List.le_sum_of_mem (List.mem_map_of_mem hv))
  · have hvt : v ≠ t := fun heq => hcontained u e he (heq ▸ hv)
    simp only [hvt, hu, if_false]
    exact hrank u e he v hv

/-- What contains something is finished, so it is not contained in itself. -/
private theorem TypesCoherent.not_contained (h : s.TypesCoherent decls) {decl : StructDecl} {state : StructState}
    (ht : s.typeAt? t = some (.struct decl state)) (hstate : ∀ fields, state ≠ .resolved fields) :
    ∀ u e, s.typeAt? u = some e → t ∉ e.contents := by
  intro u e he hmem
  obtain ⟨fields, hfields⟩ := (h.contents u e he t hmem).2 decl state ht
  exact hstate fields hfields

/-! ### One more type -/

/-- A type that can be added: its parts are there, and a struct is new. -/
structure Admits (decls : List Decl) (s : Store) (e : TypeEntry) : Prop where
  reference : ∀ inner, e = .reference inner → s.Live inner
  contents : ∀ u ∈ e.contents, s.Finished u
  struct : ∀ decl state, e = .struct decl state → state = .unresolved ∧ .struct decl ∈ decls

theorem advancesTo_addType {e : TypeEntry} : s.AdvancesTo (s.addType e) where
  entries _ x hx := ⟨x, entry_addType.mpr (.inl hx), .refl x⟩
  records _ _ hr := hr
  resolving := rfl

/-- A struct is new, or was there before. -/
private theorem Admits.struct_cases {e : TypeEntry} (he : s.Admits decls e) {decl : StructDecl} {state : StructState}
    (ht : (s.addType e).typeAt? t = some (.struct decl state)) :
    s.typeAt? t = some (.struct decl state) ∨ state = .unresolved ∧ .struct decl ∈ decls := by
  rcases entry_addType.mp ht with ht | ⟨-, heq⟩
  · exact .inl ht
  · exact .inr (he.struct decl state heq.symm)

private theorem TypesCoherent.addType (h : s.TypesCoherent decls) {e : TypeEntry} (he : s.Admits decls e) :
    (s.addType e).TypesCoherent decls where
  primitives t name ht := entry_addType.mpr (.inl (h.primitives t name ht))
  references t inner ht := by
    rcases entry_addType.mp ht with ht | ⟨-, heq⟩
    · exact (h.references t inner ht).moves advancesTo_addType.toMovesTo
    · exact (he.reference inner heq.symm).moves advancesTo_addType.toMovesTo
  contents t x hx u hu := by
    rcases entry_addType.mp hx with hx | ⟨-, rfl⟩
    · exact (h.contents t x hx u hu).moves advancesTo_addType.toMovesTo
    · exact (he.contents u hu).moves advancesTo_addType.toMovesTo
  ranked := by
    -- what is contained is there already
    refine ranked_change s.types.size e.contents h.ranked (fun u x hx hmem => ?_) (fun hmem => ?_) fun u x hx => ?_
    · exact absurd (h.contents u x hx _ hmem).1.lt_size (Nat.lt_irrefl _)
    · exact absurd (he.contents _ hmem).1.lt_size (Nat.lt_irrefl _)
    · rcases entry_addType.mp hx with hx | ⟨rfl, rfl⟩
      · exact .inr ⟨Nat.ne_of_lt (List.getElem?_eq_some_iff.mp hx).1, hx⟩
      · exact .inl ⟨rfl, rfl⟩
  declared t decl state ht := by
    rcases he.struct_cases ht with ht | ⟨-, hdecl⟩
    · exact h.declared t decl state ht
    · exact hdecl
  resolved t decl fields ht := by
    rcases he.struct_cases ht with ht | ⟨heq, -⟩
    · exact h.resolved t decl fields ht
    · cases heq
  resolving t := by
    refine (h.resolving t).trans ⟨fun ⟨decl, ht⟩ => ⟨decl, entry_addType.mpr (.inl ht)⟩, fun ⟨decl, ht⟩ => ⟨decl, ?_⟩⟩
    rcases he.struct_cases ht with ht | ⟨heq, -⟩
    · exact ht
    · cases heq
  records key r hr := by
    obtain ⟨decl, state, ht, hspan⟩ := h.records key r hr
    exact ⟨decl, state, entry_addType.mpr (.inl ht), hspan⟩

theorem Coherent.addType (h : s.Coherent decls) {e : TypeEntry} (he : s.Admits decls e) :
    (s.addType e).Coherent decls :=
  ⟨h.types.addType he, h.names.moves advancesTo_addType.toMovesTo rfl rfl⟩

/-! ### A struct that goes on -/

section

variable {decl : StructDecl} {old state : StructState} {resolving : Stack TypeId}

private theorem movesTo_withState (ht : s.typeAt? t = some (.struct decl old)) (hnext : old.Next state) :
    s.MovesTo (s.withState t state resolving) where
  entries u e he := by
    by_cases hu : u = t
    · subst hu
      obtain rfl := Option.some.inj (ht.symm.trans he)
      exact ⟨_, (entry_withState ht u).trans (if_pos rfl), .struct decl (.single hnext)⟩
    · exact ⟨e, by rw [entry_withState ht, if_neg hu, he], .refl e⟩
  records _ _ hr := hr

private theorem TypesCoherent.withState (h : s.TypesCoherent decls) (ht : s.typeAt? t = some (.struct decl old))
    (hnext : old.Next state)
    (hresolving : ∀ u, u ∈ resolving.items ↔ if u = t then state = .resolving else u ∈ s.types.resolving.items)
    (hfields : ∀ fields, state = .resolved fields → (∀ f ∈ fields, s.Finished f.2) ∧
      fields.map (·.1) = decl.fields.map (·.name) ∧ (fields.map (·.1)).Nodup) :
    (s.withState t state resolving).TypesCoherent decls := by
  have hmoves : s.MovesTo (s.withState t state resolving) := movesTo_withState ht hnext
  have hentry : ∀ u, (s.withState t state resolving).typeAt? u = _ := entry_withState ht
  have hcontents : ∀ u ∈ (TypeEntry.struct decl state).contents, s.Finished u := by
    intro u hu
    cases state with
    | resolved fields =>
      obtain ⟨f, hf, rfl⟩ := List.mem_map.mp hu
      exact (hfields fields rfl).1 f hf
    | _ => cases hu
  have hold : ∀ fields, old ≠ .resolved fields := by
    rintro fields rfl
    cases hnext
  constructor
  case primitives =>
    intro u name hu
    have hprimitive := h.primitives u name hu
    refine (hentry u).trans ?_
    rw [if_neg, hprimitive]
    rintro rfl
    rw [ht] at hprimitive
    cases hprimitive
  case references =>
    intro u inner hu
    exact (h.references u inner (entry_withState_other ht rfl hu)).moves hmoves
  case contents =>
    intro u e he v hv
    rcases entry_withState_cases ht he with ⟨-, rfl⟩ | ⟨-, he⟩
    · exact (hcontents v hv).moves hmoves
    · exact (h.contents u e he v hv).moves hmoves
  case ranked =>
    -- nothing contains the struct yet, and what it contains is finished, which it is not
    refine ranked_change t (TypeEntry.struct decl state).contents h.ranked
      (h.not_contained ht hold) (fun hmem => ?_) fun u e he => ?_
    · obtain ⟨fields, hfields⟩ := (hcontents t hmem).2 decl old ht
      exact hold fields hfields
    · rcases entry_withState_cases ht he with ⟨hu, rfl⟩ | hu
      · exact .inl ⟨hu, rfl⟩
      · exact .inr hu
  case declared =>
    intro u d x hu
    rcases entry_withState_cases ht hu with ⟨-, heq⟩ | ⟨-, hu⟩
    · cases heq
      exact h.declared t decl old ht
    · exact h.declared u d x hu
  case resolved =>
    intro u d fields hu
    rcases entry_withState_cases ht hu with ⟨-, heq⟩ | ⟨-, hu⟩
    · cases heq
      exact (hfields fields rfl).2
    · exact h.resolved u d fields hu
  case resolving =>
    intro u
    refine (hresolving u).trans ?_
    rw [hentry]
    by_cases hu : u = t
    · rw [if_pos hu, if_pos hu]
      exact ⟨fun hstate => ⟨decl, by rw [hstate]⟩, fun ⟨_, heq⟩ => by cases heq; rfl⟩
    · rw [if_neg hu, if_neg hu]
      exact h.resolving u
  case records =>
    intro key r hr
    obtain ⟨d, x, hd, hspan⟩ := h.records key r hr
    obtain ⟨e', he', hbecomes⟩ := hmoves.entries _ _ hd
    cases hbecomes with
    | refl => exact ⟨d, x, he', hspan⟩
    | struct => exact ⟨d, _, he', hspan⟩

private theorem Coherent.withState (h : s.Coherent decls) (ht : s.typeAt? t = some (.struct decl old))
    (hnext : old.Next state)
    (hresolving : ∀ u, u ∈ resolving.items ↔ if u = t then state = .resolving else u ∈ s.types.resolving.items)
    (hfields : ∀ fields, state = .resolved fields → (∀ f ∈ fields, s.Finished f.2) ∧
      fields.map (·.1) = decl.fields.map (·.name) ∧ (fields.map (·.1)).Nodup) :
    (s.withState t state resolving).Coherent decls :=
  ⟨h.types.withState ht hnext hresolving hfields, h.names.moves (movesTo_withState ht hnext) rfl rfl⟩

end

/-! ### Other names -/

/-- Frames with other names, all of them of types in use. -/
theorem Coherent.withFrames (h : s.Coherent decls) {frames : Frames}
    (htypes : ∀ f ∈ frames.frames, ∀ p ∈ f.types, s.Live p.2)
    (hvalues : ∀ f ∈ frames.frames, ∀ p ∈ f.values, ∀ t, p.2.type.value? = some t → s.Live t) :
    ({ s with frames } : Store).Coherent decls :=
  ⟨h.types.of_eq rfl rfl, htypes, hvalues, h.names.signature, h.names.variableType⟩

theorem Coherent.withFunction (h : s.Coherent decls) {key : Span} {r : FunctionRecord}
    (hsignature : ∀ sig, r.signature = some sig → s.Live sig)
    (hvariable : ∀ v, r.variableType = some v → ∀ t, v.value? = some t → s.Live t) :
    (s.withFunction key r).Coherent decls := by
  refine ⟨h.types.of_eq rfl rfl, h.names.types, h.names.values, fun k sig hsig => ?_, fun k v hv => ?_⟩
  · rw [function_withFunction] at hsig
    split at hsig
    · exact hsignature sig hsig
    · exact h.names.signature k sig hsig
  · rw [function_withFunction] at hv
    split at hv
    · exact hvariable v hv
    · exact h.names.variableType k v hv

/-- A struct that is not registered yet gets its record. -/
theorem Coherent.withStruct (h : s.Coherent decls) {decl : StructDecl}
    {state : StructState} {r : StructRecord} (hnew : s.structs.find? decl.span = none)
    (hr : s.typeAt? r.type = some (.struct decl state)) :
    s.AdvancesTo (s.withStruct decl.span r) ∧ (s.withStruct decl.span r).Coherent decls ∧
      (s.withStruct decl.span r).Live r.type := by
  have hfind : ∀ key, (s.withStruct decl.span r).structs.find? key =
      if key = decl.span then some r else s.structs.find? key := fun key => Records.find?_insert _ _ _ _
  have hmoves : s.MovesTo (s.withStruct decl.span r) := by
    refine ⟨fun _ e he => ⟨e, he, .refl e⟩, fun key x hx => ?_⟩
    rw [hfind, if_neg, hx]
    rintro rfl
    rw [hnew] at hx
    cases hx
  refine ⟨⟨hmoves, rfl⟩, ⟨⟨h.types.primitives, fun t inner ht => (h.types.references t inner ht).moves hmoves,
    fun t e he u hu => (h.types.contents t e he u hu).moves hmoves, h.types.ranked, h.types.declared, h.types.resolved,
    h.types.resolving, fun key x hx => ?_⟩, h.names.moves hmoves rfl rfl⟩, _, hr, ?_⟩
  · rw [hfind] at hx
    split at hx
    · cases hx
      exact ⟨decl, state, hr, Eq.symm ‹_›⟩
    · exact h.types.records key x hx
  · rintro _ _ ⟨⟩
    rw [hfind, if_pos rfl]
    rfl

/-! ### Beginning and end of a resolution -/

variable {s₂ : Store} {decl : StructDecl} {state : StructState}

/-- The resolution of a struct begins. -/
theorem Coherent.start (hs : s.Coherent decls) (ht : s.typeAt? t = some (.struct decl .unresolved)) :
    (s.withState t .resolving (s.types.resolving.push t)).Coherent decls := by
  refine hs.withState ht .start (fun u => ?_) nofun
  by_cases hu : u = t <;> simp [Stack.push, hu]

/-- The resolution of a struct ends, after others have gone on meanwhile. -/
theorem Coherent.stop (hs : s.Coherent decls) (ht : s.typeAt? t = some (.struct decl .unresolved))
    (hadvances : (s.withState t .resolving (s.types.resolving.push t)).AdvancesTo s₂) (hs₂ : s₂.Coherent decls)
    (hnext : StructState.Next .resolving state)
    (hfields : ∀ fields, state = .resolved fields → (∀ f ∈ fields, s₂.Finished f.2) ∧
      fields.map (·.1) = decl.fields.map (·.name) ∧ (fields.map (·.1)).Nodup) :
    s.AdvancesTo (s₂.withState t state s.types.resolving) ∧ (s₂.withState t state s.types.resolving).Coherent decls ∧
      (s₂.withState t state s.types.resolving).typeAt? t = some (.struct decl state) := by
  have hresolving : s₂.types.resolving.items = s.types.resolving.items ++ [t] := by
    rw [hadvances.resolving]
    rfl
  have hidle : t ∉ s.types.resolving.items := by
    rw [hs.types.resolving]
    rintro ⟨_, heq⟩
    rw [ht] at heq
    cases heq
  -- what is on the stack is still being resolved
  have ht₂ : s₂.typeAt? t = some (.struct decl .resolving) := by
    obtain ⟨decl', ht'⟩ := (hs₂.types.resolving t).mp (by rw [hresolving]; simp)
    obtain ⟨e, he, hmoves⟩ := hadvances.entries t _ ((entry_withState ht t).trans (if_pos rfl))
    obtain rfl := Option.some.inj (he.symm.trans ht')
    obtain ⟨_, heq⟩ := hmoves.from_struct
    cases heq
    exact ht'
  have hmoves₂ : s₂.MovesTo (s₂.withState t state s.types.resolving) := movesTo_withState ht₂ hnext
  refine ⟨⟨((movesTo_withState ht .start).trans hadvances.toMovesTo).trans hmoves₂, rfl⟩, ?_,
    (entry_withState ht₂ t).trans (if_pos rfl)⟩
  refine hs₂.withState ht₂ hnext (fun u => ?_) hfields
  rw [hresolving]
  by_cases hu : u = t
  · subst hu
    have hne : state ≠ .resolving := by
      rintro rfl
      cases hnext
    simp [hidle, hne]
  · simp [hu]

end Store

end RainCheck
