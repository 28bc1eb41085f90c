import RainCheck.Proofs.Actions
import RainCheck.Proofs.Denotation
import RainCheck.Proofs.Interning
import RainCheck.Proofs.ParsedTree

/-!
# Stores of a module

What always holds of a store (`Sound`) and how a store may change (`Extends`), relative to what the text of the module
lists.
* A type that stands behind a reference is `Known`; one that is used by value is `Settled`: if it is a struct, its
  fields are resolved.
* The types of the fields of a struct denote what is written.
* The structs that are being resolved form a path of the graph of structs, on which none is met twice; a resolved struct
  is free of doom, a failed one is doomed.  This is said of modules all of whose types are declared.
* Every variable of a frame has a type, or is a function whose type is kept with it.
* Nothing that is settled changes later.
-/

namespace RainCheck

open Relation (ReflTransGen)

/-! ### What a text lists -/

/--
What the text of a module fixes: the functions declared in it, where it names something else than a value, and what the
names of types mean, once all of them are declared.
-/
structure Listing where
  /-- The declared types of the function whose name stands at a span. -/
  prototype : Span → Prototype
  /-- A span is that of the name of a type or a builtin. -/
  isOtherName : Span → Prop
  scope : TypeScope
  /-- The types of the module are all declared, so that their names mean what they do in the text. -/
  closed : Prop
  /-- No two declarations of the module have one name. -/
  distinct : Prop

namespace Listing

variable {L : Listing}

/-- A mention is listed. -/
def Has (L : Listing) : Mention → Prop
  | .function header => L.prototype header.span = header.prototype
  | .typeName span => L.isOtherName span
  | .builtin span => L.isOtherName span
  | .struct _ => True
  | .value _ => True

/-- All mentions are listed. -/
def Lists (L : Listing) (ms : List Mention) : Prop := ∀ m ∈ ms, L.Has m

@[simp] theorem lists_nil : L.Lists [] := by simp [Lists]

@[simp] theorem lists_cons {m : Mention} {ms : List Mention} : L.Lists (m :: ms) ↔ L.Has m ∧ L.Lists ms := by
  simp [Lists]

@[simp] theorem lists_append {ms ns : List Mention} : L.Lists (ms ++ ns) ↔ L.Lists ms ∧ L.Lists ns := by
  simp [Lists, or_imp, forall_and]

/-- A problem is not about the name of a value: if a name is unknown, it is that of a type or a builtin. -/
def Blames (L : Listing) (d : Diagnostic) : Prop := ∀ name, d.cause = .unknownSymbol name → L.isOtherName d.span

/--
A problem is not about the name of a value.  If it is about a struct that contains itself, it names the structs of a
cycle, and is found where the last one contains the first.
-/
structure Allows (L : Listing) (d : Diagnostic) : Prop where
  blames : L.Blames d
  names : d.kind = .recursiveTypeDefinition → L.closed → ∃ first rest,
    StructDecl.IsCycle L.scope first rest d.span ∧
    d.cause = .recursiveType ((first :: rest).map (·.name) ++ [first.name])

theorem Allows.cycle {d : Diagnostic} (h : L.Allows d)
    (hkind : d.kind = .recursiveTypeDefinition) (hclosed : L.closed) :
    ∃ A, StructDecl.OnCycle L.scope A := by
  obtain ⟨first, rest, hcycle, -⟩ := h.names hkind hclosed
  exact ⟨first, hcycle.onCycle⟩

theorem Allows.of_kind {d : Diagnostic} (h : d.kind ≠ .undefinedSymbol ∧ d.kind ≠ .recursiveTypeDefinition) :
    L.Allows d where
  blames name hname := absurd (by rw [Diagnostic.kind, hname]; rfl) h.1
  names hkind := absurd hkind h.2

theorem Allows.unknownSymbol {span : Span} {name : String} (h : L.isOtherName span) :
    L.Allows ⟨span, .unknownSymbol name⟩ where
  blames _ _ := h
  names := nofun

end Listing

/-! ### Types -/

/-- The types that can be given by an entry: a struct that is not settled may change its state, all else stays. -/
inductive TypeEntry.Becomes : TypeEntry → TypeEntry → Prop where
  | refl (e : TypeEntry) : Becomes e e
  | start (decl : StructDecl) (state : StructState) : Becomes (.struct decl .unresolved) (.struct decl state)
  | finish (decl : StructDecl) (state : StructState) : Becomes (.struct decl .resolving) (.struct decl state)

/-- Whether a type is a struct whose fields are not resolved yet. -/
def TypeEntry.isPending : TypeEntry → Bool
  | .struct _ .unresolved => true
  | _ => false

namespace Store

variable {s s' s'' : Store} {id : TypeId}

/-- The type at a position. -/
def typeAt? (s : Store) (id : TypeId) : Option TypeEntry := s.types.entries[id]?

/-- The frame with a number. -/
def frame? (s : Store) (fr : FrameId) : Option Frame := s.frames.frames[fr]?

/-- The number of structs whose resolution has not begun. -/
def pending (s : Store) : Nat := s.types.entries.countP TypeEntry.isPending

/-- A type that can be referred to: a struct is registered in the module. -/
def Known (s : Store) (id : TypeId) : Prop :=
  ∃ e, s.typeAt? id = some e ∧
    ∀ decl state, e = .struct decl state → s.structs.find? decl.span = some ⟨id, FrameId.module⟩

/-- A type that can be used by value: the fields of a struct are resolved. -/
def Settled (s : Store) (id : TypeId) : Prop :=
  s.Known id ∧ ∀ decl state, s.typeAt? id = some (.struct decl state) → ∃ fields, state = .resolved fields

/-- The innermost struct that is being resolved. -/
def Top (s : Store) (A : StructDecl) : Prop :=
  ∃ id state, s.types.resolving.items.getLast? = some id ∧ s.typeAt? id = some (.struct A state)

/-- No struct is being resolved. -/
def Idle (s : Store) : Prop := s.types.resolving.items = []

/-- Between two structs that are being resolved, the first depends on the second. -/
def Link (scope : TypeScope) (s : Store) (a b : TypeId) : Prop :=
  ∃ A B sa sb, s.typeAt? a = some (.struct A sa) ∧ s.typeAt? b = some (.struct B sb) ∧ A.DependsOn scope B

/-! ### Growth -/

end Store

/-- A frame in which more variables are declared. -/
structure Frame.GrowsTo (f f' : Frame) : Prop where
  outer : f'.outer = f.outer
  types : f'.types = f.types
  values : f.values <+: f'.values

/-- A record in which more is known. -/
structure FunctionRecord.GrowsTo (r r' : FunctionRecord) : Prop where
  signature : ∀ sig, r.signature = some sig → r'.signature = some sig
  variableType : ∀ h, r.variableType = some h → ∃ h', r'.variableType = some h' ∧
    ∀ t, h.value? = some t → h'.value? = some t
  failure : ∀ why, r.signature = none → r.failure = some why → r'.signature = none ∧ r'.failure = some why

namespace Store

/-- A store in which more is known. -/
structure GrowsTo (s s' : Store) : Prop where
  entries : ∀ id e, s.typeAt? id = some e → ∃ e', s'.typeAt? id = some e' ∧ e.Becomes e'
  structs : s'.structs = s.structs
  frames : ∀ fr f, s.frame? fr = some f → ∃ f', s'.frame? fr = some f' ∧ f.GrowsTo f'
  functions : ∀ key, (s.function key).GrowsTo (s'.function key)

/-- A store in which more is known and the same structs are being resolved. -/
structure Extends (s s' : Store) : Prop extends s.GrowsTo s' where
  resolving : s'.types.resolving = s.types.resolving
  pending_le : s'.pending ≤ s.pending

/-- A store in which more is known about types, and nothing else. -/
structure Refines (s s' : Store) : Prop extends s.Extends s' where
  frames_eq : s'.frames = s.frames
  functions_eq : s'.functions = s.functions

variable {s s' s'' : Store} {id : TypeId}

end Store

private theorem TypeEntry.Becomes.trans {e e' e'' : TypeEntry} (h : e.Becomes e') (h' : e'.Becomes e'') :
    e.Becomes e'' := by
  cases h with
  | refl => exact h'
  | start decl state =>
    cases h' with
    | refl => exact .start decl state
    | start => exact .start decl _
    | finish => exact .start decl _
  | finish decl state =>
    cases h' with
    | refl => exact .finish decl state
    | start => exact .finish decl _
    | finish => exact .finish decl _

theorem Frame.GrowsTo.refl (f : Frame) : f.GrowsTo f := ⟨rfl, rfl, List.prefix_rfl⟩

private theorem Frame.GrowsTo.trans {f f' f'' : Frame} (h : f.GrowsTo f') (h' : f'.GrowsTo f'') : f.GrowsTo f'' :=
  ⟨h'.outer.trans h.outer, h'.types.trans h.types, h.values.trans h'.values⟩

theorem FunctionRecord.GrowsTo.refl (r : FunctionRecord) : r.GrowsTo r :=
  ⟨fun _ h => h, fun h hr => ⟨h, hr, fun _ ht => ht⟩, fun _ hsignature hfailure => ⟨hsignature, hfailure⟩⟩

private theorem FunctionRecord.GrowsTo.trans {r r' r'' : FunctionRecord} (h : r.GrowsTo r') (h' : r'.GrowsTo r'') :
    r.GrowsTo r'' := by
  refine ⟨fun sig hsig => h'.signature sig (h.signature sig hsig), fun t ht => ?_, fun why hnone hwhy => ?_⟩
  · obtain ⟨t', ht', hvalue⟩ := h.variableType t ht
    obtain ⟨t'', ht'', hvalue'⟩ := h'.variableType t' ht'
    exact ⟨t'', ht'', fun u hu => hvalue' u (hvalue u hu)⟩
  · obtain ⟨hnone', hwhy'⟩ := h.failure why hnone hwhy
    exact h'.failure why hnone' hwhy'

namespace Store

variable {s s' s'' : Store} {id : TypeId}

theorem GrowsTo.refl (s : Store) : s.GrowsTo s :=
  ⟨fun _ e he => ⟨e, he, .refl e⟩, rfl, fun _ f hf => ⟨f, hf, .refl f⟩, fun _ => .refl _⟩

theorem GrowsTo.trans (h : s.GrowsTo s') (h' : s'.GrowsTo s'') : s.GrowsTo s'' := by
  refine ⟨fun id e he => ?_, h'.structs.trans h.structs, fun fr f hf => ?_,
    fun key => (h.functions key).trans (h'.functions key)⟩
  · obtain ⟨e', he', hbecomes⟩ := h.entries id e he
    obtain ⟨e'', he'', hbecomes'⟩ := h'.entries id e' he'
    exact ⟨e'', he'', hbecomes.trans hbecomes'⟩
  · obtain ⟨f', hf', hgrows⟩ := h.frames fr f hf
    obtain ⟨f'', hf'', hgrows'⟩ := h'.frames fr f' hf'
    exact ⟨f'', hf'', hgrows.trans hgrows'⟩

theorem Extends.refl (s : Store) : s.Extends s := ⟨.refl s, rfl, Nat.le_refl _⟩

theorem Extends.trans (h : s.Extends s') (h' : s'.Extends s'') : s.Extends s'' :=
  ⟨h.toGrowsTo.trans h'.toGrowsTo, h'.resolving.trans h.resolving, Nat.le_trans h'.pending_le h.pending_le⟩

theorem Refines.refl (s : Store) : s.Refines s := ⟨.refl s, rfl, rfl⟩

theorem Refines.trans (h : s.Refines s') (h' : s'.Refines s'') : s.Refines s'' :=
  ⟨h.toExtends.trans h'.toExtends, h'.frames_eq.trans h.frames_eq, h'.functions_eq.trans h.functions_eq⟩

namespace GrowsTo

variable (h : s.GrowsTo s')
include h

theorem struct {decl : StructDecl} {state : StructState} (he : s.typeAt? id = some (.struct decl state)) :
    ∃ state', s'.typeAt? id = some (.struct decl state') := by
  obtain ⟨e', he', hbecomes⟩ := h.entries id _ he
  cases hbecomes <;> exact ⟨_, he'⟩

theorem resolved {decl : StructDecl} {fields : List (String × TypeId)}
    (he : s.typeAt? id = some (.struct decl (.resolved fields))) :
    s'.typeAt? id = some (.struct decl (.resolved fields)) := by
  obtain ⟨e', he', hbecomes⟩ := h.entries id _ he
  cases hbecomes
  exact he'

theorem failed {decl : StructDecl} {why : Diagnostic} (he : s.typeAt? id = some (.struct decl (.failed why))) :
    s'.typeAt? id = some (.struct decl (.failed why)) := by
  obtain ⟨e', he', hbecomes⟩ := h.entries id _ he
  cases hbecomes
  exact he'

theorem same {e : TypeEntry} (he : s.typeAt? id = some e) (hstruct : e.struct? = none) : s'.typeAt? id = some e := by
  obtain ⟨e', he', hbecomes⟩ := h.entries id _ he
  cases hbecomes with
  | refl => exact he'
  | start => cases hstruct
  | finish => cases hstruct

/-- An entry of the later store, as it was before. -/
theorem entry_of_some {e e' : TypeEntry} (he : s.typeAt? id = some e) (he' : s'.typeAt? id = some e') :
    e.Becomes e' := by
  obtain ⟨e'', he'', hbecomes⟩ := h.entries id e he
  rw [he'] at he''
  cases he''
  exact hbecomes

theorem known (hk : s.Known id) : s'.Known id := by
  obtain ⟨e, he, hregistered⟩ := hk
  obtain ⟨e', he', hbecomes⟩ := h.entries id e he
  refine ⟨e', he', fun decl state heq => ?_⟩
  rw [h.structs]
  cases hbecomes with
  | refl => exact hregistered decl state heq
  | start => cases heq; exact hregistered decl _ rfl
  | finish => cases heq; exact hregistered decl _ rfl

theorem settled (hs : s.Settled id) : s'.Settled id := by
  refine ⟨h.known hs.1, fun decl state he' => ?_⟩
  obtain ⟨e, he, -⟩ := hs.1
  have hbecomes := h.entry_of_some he he'
  cases hbecomes with
  | refl => exact hs.2 decl state he
  | start => obtain ⟨fields, hfields⟩ := hs.2 _ _ he; cases hfields
  | finish => obtain ⟨fields, hfields⟩ := hs.2 _ _ he; cases hfields

private theorem keepsTypes : s.KeepsTypes s' := ⟨fun _ _ => h.same, fun _ _ _ => h.struct, fun _ _ hr => h.structs ▸ hr⟩

theorem denotes {τ : TypeTerm} (hd : s.Denotes id τ) : s'.Denotes id τ :=
  hd.keep h.keepsTypes

theorem denotesAll {ids : List TypeId} {τs : List TypeTerm} (hd : s.DenotesAll ids τs) : s'.DenotesAll ids τs :=
  hd.keep h.keepsTypes

theorem link {scope : TypeScope} {a b : TypeId} (hlink : s.Link scope a b) : s'.Link scope a b := by
  obtain ⟨A, B, sa, sb, ha, hb, hdep⟩ := hlink
  obtain ⟨sa', ha'⟩ := h.struct ha
  obtain ⟨sb', hb'⟩ := h.struct hb
  exact ⟨A, B, sa', sb', ha', hb', hdep⟩

end GrowsTo

/-- What is not registered later was not registered before. -/
theorem GrowsTo.unregistered {key : Span} (hg : s.GrowsTo s') (h : (s'.function key).variableType = none) :
    (s.function key).variableType = none := by
  cases hbefore : (s.function key).variableType with
  | none => rfl
  | some t =>
    obtain ⟨t', ht', -⟩ := (hg.functions key).variableType t hbefore
    rw [h] at ht'
    cases ht'

theorem Extends.top {A : StructDecl} (h : s.Extends s') (htop : s.Top A) : s'.Top A := by
  obtain ⟨id, state, hlast, he⟩ := htop
  obtain ⟨state', he'⟩ := h.toGrowsTo.struct he
  exact ⟨id, state', by rw [h.resolving]; exact hlast, he'⟩

theorem Extends.idle (h : s.Extends s') (hidle : s.Idle) : s'.Idle := by
  unfold Idle
  rw [h.resolving]
  exact hidle

theorem Idle.not_top {A : StructDecl} (h : s.Idle) : ¬s.Top A := by
  rintro ⟨id, state, hlast, -⟩
  rw [h] at hlast
  cases hlast

end Store

/-- The types of fields denote what is written. -/
def Store.Wrote (s : Store) (scope : TypeScope) (fields : List (String × TypeId)) (declared : List FieldDecl) : Prop :=
  List.Forall₂ (fun f d => s.Denotes f.2 (d.type.term scope)) fields declared

theorem Store.Wrote.grow {s s' : Store} {scope : TypeScope} {fields : List (String × TypeId)}
    {declared : List FieldDecl}
    (h : s.Wrote scope fields declared) (hg : s.GrowsTo s') : s'.Wrote scope fields declared :=
  List.Forall₂.imp (fun _ _ => hg.denotes) h

/-- The types that can be named everywhere are primitive types with their names. -/
theorem primitive_of_builtin {name : String} {id : TypeId} (h : Frames.builtinTypes.lookup name = some id) :
    Types.primitives[id]? = some name := by
  obtain ⟨before, behind, heq, -⟩ := List.lookup_eq_some_iff.mp h
  have hall : ∀ p ∈ Frames.builtinTypes, Types.primitives[p.2]? = some p.1 := by decide
  exact hall (name, id) (heq ▸ by simp)

/-! ### Sound stores -/

/-- What holds of the types of a store. -/
structure Store.TypesSound (L : Listing) (s : Store) : Prop where
  primitives : ∀ id name, s.typeAt? id = some (.primitive name) ↔ Types.primitives[id]? = some name
  references : ∀ id inner, s.typeAt? id = some (.reference inner) → inner < id ∧ s.Known inner
  functionTypes : ∀ id params returns, s.typeAt? id = some (.function params returns) →
    (∀ p ∈ params, p < id ∧ s.Settled p) ∧ returns < id ∧ s.Settled returns
  listed : ∀ id decl state, s.typeAt? id = some (.struct decl state) → L.Lists decl.mentions
  resolved : ∀ id decl fields, s.typeAt? id = some (.struct decl (.resolved fields)) →
    (∀ f ∈ fields, s.Settled f.2) ∧ fields.map (·.1) = decl.fields.map (·.name) ∧ (fields.map (·.1)).Nodup ∧
      (L.closed → ¬decl.Doomed L.scope)
  written : L.closed → ∀ id decl fields, s.typeAt? id = some (.struct decl (.resolved fields)) →
    s.Wrote L.scope fields decl.fields
  failed : ∀ id decl why, s.typeAt? id = some (.struct decl (.failed why)) →
    L.Allows why ∧ (L.closed → decl.Doomed L.scope)
  resolving : ∀ id, id ∈ s.types.resolving.items ↔ ∃ decl, s.typeAt? id = some (.struct decl .resolving)
  path : L.closed → s.types.resolving.items.IsChain (s.Link L.scope)
  nodup : s.types.resolving.items.Nodup
  held : ∀ id ∈ s.types.resolving.items, s.Known id
  once : ∀ id id' e, s.typeAt? id = some e → s.typeAt? id' = some e → e.struct? = none → id = id'
  registered : L.distinct → ∀ id decl state, s.typeAt? id = some (.struct decl state) →
    s.structs.find? decl.span = some ⟨id, FrameId.module⟩ ∧ L.scope decl.name = some (some decl)

/-- What the name of a type means in the module. -/
def Store.Means (s : Store) (name : String) : Option (Option StructDecl) → Prop
  | none => s.frames.lookupType FrameId.module name = .ok none
  | some decl =>
    ∃ id e, s.frames.lookupType FrameId.module name = .ok (some id) ∧ s.typeAt? id = some e ∧
      e.struct?.map (·.1) = decl ∧ (decl = none → Frames.builtinTypes.lookup name = some id)

/-- A declared variable has a type; that of a function is kept with the function. -/
def Store.Declares (L : Listing) (s : Store) (v : Variable) : Prop :=
  match v.kind with
  | .function declared =>
    L.prototype v.span = declared ∧ L.Lists declared.mentions ∧ (s.function v.span).variableType.isSome
  | _ => ∃ t, v.type.value? = some t ∧ s.Settled t

/-- What holds of the frames of a store. -/
structure Store.FramesSound (L : Listing) (s : Store) : Prop where
  three_le : 3 ≤ s.frames.size
  outer : ∀ fr f, s.frame? fr = some f → ∀ o ∈ f.outer, o < fr
  types : ∀ fr f name t, s.frame? fr = some f → (name, t) ∈ f.types → s.Known t
  values : ∀ fr f name v, s.frame? fr = some f → (name, v) ∈ f.values → s.Declares L v
  once : ∀ fr f, s.frame? fr = some f → (f.values.map (·.1)).Nodup
  scope : L.closed → ∀ name, s.Means name (L.scope name)

/-- What holds of the records of functions. -/
structure Store.FunctionsSound (L : Listing) (s : Store) : Prop where
  signature : ∀ key sig, (s.function key).signature = some sig →
    ∃ params returns, s.typeAt? sig = some (.function params returns) ∧ params.length = (L.prototype key).params.length
  variableType : ∀ key h, (s.function key).variableType = some h →
    (h = .empty ∧ (s.function key).signature = none) ∨ ∃ sig, h = .owned sig ∧ (s.function key).signature = some sig
  failure : ∀ key why, (s.function key).failure = some why → L.Allows why

/-- What holds of a store after the names of the module are registered. -/
structure Store.Sound (L : Listing) (s : Store) : Prop where
  types : s.TypesSound L
  frames : s.FramesSound L
  functions : s.FunctionsSound L

namespace Store

variable {L : Listing} {s s' : Store} {id : TypeId}

theorem TypesSound.congr (h : s.TypesSound L) (htypes : s'.types = s.types) (hstructs : s'.structs = s.structs) :
    s'.TypesSound L := by
  obtain ⟨types, frames, functions, structs⟩ := s
  obtain ⟨types', frames', functions', structs'⟩ := s'
  simp only at htypes hstructs
  subst htypes hstructs
  have hkeeps : Store.KeepsTypes ⟨types', frames, functions, structs'⟩ ⟨types', frames', functions', structs'⟩ :=
    ⟨fun _ _ he _ => he, fun _ _ state he => ⟨state, he⟩, fun _ _ hr => hr⟩
  exact ⟨h.primitives, h.references, h.functionTypes, h.listed, h.resolved,
    fun hclosed id decl fields he =>
      List.Forall₂.imp (fun _ _ hd => hd.keep hkeeps) (h.written hclosed id decl fields he), h.failed,
    h.resolving, h.path, h.nodup, h.held, h.once, h.registered⟩

private theorem GrowsTo.means (hg : s.GrowsTo s') (hframes : s'.frames = s.frames) {name : String}
    {meaning : Option (Option StructDecl)} (h : s.Means name meaning) : s'.Means name meaning := by
  cases meaning with
  | none => rwa [Means, hframes]
  | some decl =>
    obtain ⟨id, e, hlookup, he, hdecl, hbuiltin⟩ := h
    obtain ⟨e', he', hbecomes⟩ := hg.entries id e he
    refine ⟨id, e', by rwa [hframes], he', ?_, hbuiltin⟩
    cases hbecomes <;> exact hdecl

theorem GrowsTo.declares (hg : s.GrowsTo s') {v : Variable} (h : s.Declares L v) : s'.Declares L v := by
  unfold Declares at h ⊢
  split
  · rename_i declared hkind
    rw [hkind] at h
    refine ⟨h.1, h.2.1, ?_⟩
    obtain ⟨t, ht⟩ := Option.isSome_iff_exists.mp h.2.2
    obtain ⟨t', ht', -⟩ := (hg.functions v.span).variableType t ht
    simp [ht']
  · rename_i hkind
    have h : ∃ t, v.type.value? = some t ∧ s.Settled t := by
      split at h
      · rename_i declared hfunction
        exact absurd hfunction (hkind declared)
      · exact h
    obtain ⟨t, ht, hsettled⟩ := h
    exact ⟨t, ht, hg.settled hsettled⟩

theorem FramesSound.grow (h : s.FramesSound L) (hg : s.GrowsTo s') (hframes : s'.frames = s.frames) :
    s'.FramesSound L := by
  have hframe : ∀ fr, s'.frame? fr = s.frame? fr := fun fr => by unfold frame?; rw [hframes]
  refine ⟨by rw [hframes]; exact h.three_le, ?_, ?_, ?_, ?_,
    fun hclosed name => hg.means hframes (h.scope hclosed name)⟩
  · intro fr f hf
    exact h.outer fr f (hframe fr ▸ hf)
  · intro fr f name t hf ht
    exact hg.known (h.types fr f name t (hframe fr ▸ hf) ht)
  · intro fr f name v hf hv
    exact hg.declares (h.values fr f name v (hframe fr ▸ hf) hv)
  · intro fr f hf
    exact h.once fr f (hframe fr ▸ hf)

theorem FunctionsSound.grow (h : s.FunctionsSound L) (hg : s.GrowsTo s') (hfunctions : s'.functions = s.functions) :
    s'.FunctionsSound L := by
  have hrecord : ∀ key, s'.function key = s.function key := fun key => by unfold function; rw [hfunctions]
  refine ⟨fun key sig hsig => ?_, fun key t ht => ?_, fun key why hwhy => ?_⟩
  · obtain ⟨params, returns, he, hlen⟩ := h.signature key sig (hrecord key ▸ hsig)
    exact ⟨params, returns, hg.same he rfl, hlen⟩
  · rw [hrecord] at ht ⊢
    exact h.variableType key t ht
  · exact h.failure key why (hrecord key ▸ hwhy)

/-- A change of the types only. -/
theorem Sound.change_types (h : s.Sound L) (hg : s.GrowsTo s') (hframes : s'.frames = s.frames)
    (hfunctions : s'.functions = s.functions) (htypes : s'.TypesSound L) : s'.Sound L :=
  ⟨htypes, h.frames.grow hg hframes, h.functions.grow hg hfunctions⟩

/-! ### Types of a sound store -/

theorem Known.get (h : s.Known id) : ∃ e, s.types.get id = .ok e ∧ s.typeAt? id = some e := by
  obtain ⟨e, he, -⟩ := h
  exact ⟨e, itemAt_eq_ok_iff.mpr he, he⟩

theorem Known.lt_size (h : s.Known id) : id < s.types.size := by
  obtain ⟨e, he, -⟩ := h
  exact (List.getElem?_eq_some_iff.mp he).1

theorem known_of_entry {e : TypeEntry} (he : s.typeAt? id = some e) (hstruct : e.struct? = none) : s.Known id := by
  refine ⟨e, he, fun decl state heq => ?_⟩
  subst heq
  cases hstruct

theorem settled_of_entry {e : TypeEntry} (he : s.typeAt? id = some e) (hstruct : e.struct? = none) : s.Settled id := by
  refine ⟨known_of_entry he hstruct, fun decl state he' => ?_⟩
  rw [he] at he'
  cases he'
  cases hstruct

namespace TypesSound

variable (h : s.TypesSound L)
include h

theorem void : s.typeAt? TypeId.void = some (.primitive "void") := (h.primitives _ _).mpr rfl

theorem never : s.typeAt? TypeId.never = some (.primitive "never") := (h.primitives _ _).mpr rfl

/-- The type of a constant is primitive. -/
theorem value (v : Value) : ∃ name, s.typeAt? v.type = some (.primitive name) := by
  cases v <;> exact ⟨_, (h.primitives _ _).mpr rfl⟩

theorem ordered : s.types.Ordered where
  parts id e he t ht := by
    cases e with
    | reference inner =>
      obtain rfl := List.mem_singleton.mp ht
      exact (h.references id t he).1
    | function params returns =>
      obtain ⟨hparams, hreturns, -⟩ := h.functionTypes id params returns he
      rcases List.mem_cons.mp ht with rfl | ht
      · exact hreturns
      · exact (hparams t ht).1
    | primitive | struct => cases ht
  once := h.once

theorem text (hsize : id < s.types.size) : ∃ text, s.types.text id = .ok text := h.ordered.text_ok hsize

end TypesSound

mutual

/-- A term is denoted by one position at most, if no name is taken twice. -/
theorem TypesSound.denotes_inj (h : s.TypesSound L) (hdistinct : L.distinct) {id id' : TypeId} {τ : TypeTerm}
    (hd : s.Denotes id τ) (hd' : s.Denotes id' τ) : id = id' := by
  cases hd with
  | primitive he =>
    cases hd' with
    | primitive he' => exact h.once id id' _ he he' rfl
  | @struct _ d state he hr =>
    generalize hname : d.name = name at hd'
    cases hd' with
    | @struct _ d' state' he' hr' =>
      -- both structs are the one that the name means
      have hscope := (h.registered hdistinct id d state he).2
      rw [hname, (h.registered hdistinct id' d' state' he').2] at hscope
      cases hscope
      cases hr.symm.trans hr'
      rfl
  | reference he ht =>
    cases hd' with
    | reference he' ht' =>
      obtain rfl := h.denotes_inj hdistinct ht ht'
      exact h.once id id' _ he he' rfl
  | function he hps hr =>
    cases hd' with
    | function he' hps' hr' =>
      obtain rfl := h.denotesAll_inj hdistinct hps hps'
      obtain rfl := h.denotes_inj hdistinct hr hr'
      exact h.once id id' _ he he' rfl

private theorem TypesSound.denotesAll_inj (h : s.TypesSound L) (hdistinct : L.distinct) {ids ids' : List TypeId}
    {τs : List TypeTerm} (hd : s.DenotesAll ids τs) (hd' : s.DenotesAll ids' τs) : ids = ids' := by
  cases hd with
  | nil =>
    cases hd'
    rfl
  | cons hd hds =>
    cases hd' with
    | cons hd' hds' => rw [h.denotes_inj hdistinct hd hd', h.denotesAll_inj hdistinct hds hds']

end

/-! ### Names in a sound store -/

theorem get_frame {fr : FrameId} (hfr : fr < s.frames.size) : ∃ f, s.frames.get fr = .ok f ∧ s.frame? fr = some f := by
  have hf : s.frame? fr = some s.frames.frames[fr] := List.getElem?_eq_getElem hfr
  exact ⟨_, itemAt_eq_ok_iff.mpr hf, hf⟩

theorem frame_lt_size {fr : FrameId} {f : Frame} (hf : s.frame? fr = some f) : fr < s.frames.size :=
  (List.getElem?_eq_some_iff.mp hf).1

theorem GrowsTo.frame_lt {fr : FrameId} (hg : s.GrowsTo s') (hfr : fr < s.frames.size) : fr < s'.frames.size := by
  obtain ⟨f, -, hf⟩ := get_frame hfr
  obtain ⟨f', hf', -⟩ := hg.frames fr f hf
  exact frame_lt_size hf'

theorem mem_of_lookup {α : Type} {l : List (String × α)} {name : String} {a : α} (h : l.lookup name = some a) :
    (name, a) ∈ l := by
  obtain ⟨l₁, l₂, rfl, -⟩ := List.lookup_eq_some_iff.mp h
  simp

theorem lookup_of_mem {α : Type} {l : List (String × α)} {name : String} {a : α} (h : (name, a) ∈ l)
    (hnodup : (l.map (·.1)).Nodup) : l.lookup name = some a := by
  induction l with
  | nil => cases h
  | cons p l ih =>
    obtain ⟨hp, hl⟩ := List.nodup_cons.mp hnodup
    rw [List.lookup_cons]
    rcases List.mem_cons.mp h with rfl | h
    · simp
    · have hne : name ≠ p.1 := by
        rintro rfl
        exact hp (List.mem_map.mpr ⟨_, h, rfl⟩)
      rw [beq_eq_false_iff_ne.mpr hne]
      exact ih h hl

namespace FramesSound

variable (h : s.FramesSound L) {fr : FrameId}

/-- A search through a chain of frames raises no fault, and finds what stands in one of them. -/
private theorem searchIn {α : Type} (find : Frame → Option α) {chain : List FrameId}
    (hchain : ∀ o ∈ chain, o < s.frames.size) :
    ∃ r, s.frames.searchIn find chain = .ok r ∧
      ∀ a, r = some a → ∃ fr f, s.frame? fr = some f ∧ find f = some a := by
  induction chain with
  | nil => exact ⟨none, rfl, by simp⟩
  | cons fr chain ih =>
    obtain ⟨f, hget, hf⟩ := get_frame (hchain fr (by simp))
    rw [Frames.searchIn, hget, ok_bind]
    cases hfind : find f with
    | some a =>
      refine ⟨some a, rfl, fun b hb => ?_⟩
      cases hb
      exact ⟨fr, f, hf, hfind⟩
    | none => exact ih fun o ho => hchain o (by simp [ho])

include h

private theorem search {α : Type} (find : Frame → Option α) (hfr : fr < s.frames.size) :
    ∃ r, s.frames.search find fr = .ok r ∧ ∀ a, r = some a → ∃ fr f, s.frame? fr = some f ∧ find f = some a := by
  obtain ⟨f, hget, hf⟩ := get_frame hfr
  have hchain : s.frames.chain fr = .ok (fr :: f.outer) := by simp [Frames.chain, hget]
  rw [Frames.search, hchain, ok_bind]
  refine searchIn find fun o ho => ?_
  rcases List.mem_cons.mp ho with rfl | ho
  · exact hfr
  · exact Nat.lt_trans (h.outer fr f hf o ho) hfr

theorem lookupType (hfr : fr < s.frames.size) (name : String) :
    ∃ r, s.frames.lookupType fr name = .ok r ∧ ∀ id, r = some id → s.Known id := by
  obtain ⟨r, hr, hfound⟩ := h.search (fun f => f.findType name) hfr
  refine ⟨r, hr, fun id hid => ?_⟩
  obtain ⟨fr', f, hf, hfind⟩ := hfound id hid
  exact h.types fr' f name id hf (mem_of_lookup hfind)

theorem lookup (hfr : fr < s.frames.size) (name : String) :
    ∃ r, s.frames.lookup fr name = .ok r ∧ ∀ v, r = some v → s.Declares L v := by
  obtain ⟨r, hr, hfound⟩ := h.search (fun f => f.findVariable name) hfr
  refine ⟨r, hr, fun v hv => ?_⟩
  obtain ⟨fr', f, hf, hfind⟩ := hfound v hv
  exact h.values fr' f name v hf (mem_of_lookup hfind)

theorem module_lt : FrameId.module < s.frames.size := Nat.lt_of_lt_of_le (by decide) h.three_le

/-- A name that is not found in the module means nothing. -/
theorem scope_eq_none {name : String} (hclosed : L.closed)
    (hlookup : s.frames.lookupType FrameId.module name = .ok none) :
    L.scope name = none := by
  have hmeans := h.scope hclosed name
  cases hscope : L.scope name with
  | none => rfl
  | some decl =>
    rw [hscope] at hmeans
    obtain ⟨id, e, hfound, -⟩ := hmeans
    rw [hlookup] at hfound
    cases hfound

/-- A name that is found in the module means what is found. -/
theorem scope_eq_some {name : String} {e : TypeEntry} (hclosed : L.closed)
    (hlookup : s.frames.lookupType FrameId.module name = .ok (some id)) (he : s.typeAt? id = some e) :
    L.scope name = some (e.struct?.map (·.1)) := by
  have hmeans := h.scope hclosed name
  cases hscope : L.scope name with
  | none =>
    rw [hscope] at hmeans
    have hnone : s.frames.lookupType FrameId.module name = .ok none := hmeans
    rw [hlookup] at hnone
    cases hnone
  | some decl =>
    rw [hscope] at hmeans
    obtain ⟨id', e', hfound, he', hdecl, -⟩ := hmeans
    rw [hlookup] at hfound
    cases hfound
    rw [he] at he'
    cases he'
    rw [hdecl]

end FramesSound

/-- A name that is found in the module denotes what is written. -/
theorem Sound.denotes_named (h : s.Sound L) (hclosed : L.closed) {name : String}
    (hlookup : s.frames.lookupType FrameId.module name = .ok (some id)) (span : Span) :
    s.Denotes id ((TypeExpr.named span name).term L.scope) := by
  obtain ⟨r, hfound, hknown⟩ := h.frames.lookupType h.frames.module_lt name
  cases hlookup.symm.trans hfound
  obtain ⟨e, he, hregistered⟩ := hknown id rfl
  have hscope := h.frames.scope_eq_some hclosed hlookup he
  rw [TypeExpr.term, hscope]
  cases e with
  | struct d state => exact .struct he (hregistered d state rfl)
  | primitive | reference | function =>
    have hmeans := h.frames.scope hclosed name
    rw [hscope] at hmeans
    obtain ⟨id', e', hlookup', -, -, hbuiltin⟩ := hmeans
    cases hlookup.symm.trans hlookup'
    exact .primitive ((h.types.primitives id name).mpr (primitive_of_builtin (hbuiltin rfl)))

end Store

end RainCheck
