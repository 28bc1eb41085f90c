import RainCheck.Proofs.RefusalsInStep
import RainCheck.Proofs.Sparing

/-!
# Stores that are ready for bodies

What is known about a store when the first body is checked (`Store.Ready`).
* (frames) There are the three frames of the module, whose variables are the functions of the module.
* (structs) Every struct that can be named is decided.
* (functions) Nothing is known about a function that does not have its name in the module.
So stores that differ by spans at that point differ by numbers from there on, whatever bodies are checked
(`Store.Matches.renumbered`).
-/

namespace RainCheck

open RainCheck.Action

variable {options : Options} {decls decls' : List Decl} {items : List Item} {p : Progress} {s s' : Store}

/-- A store on which the bodies of a module can be checked. -/
structure Store.Ready (decls : List Decl) (s : Store) : Prop where
  resting : Resting decls decls s
  fit : s.Fit (· ∈ s.recorded) fun _ => False
  size : s.frames.size = 3
  plain : ∀ fr f v, s.frame? fr = some f → v ∈ f.values → v.2.type = .empty
  functions : ∀ key, s.function key = {} ∨ ∃ f, (Decl.function f).Owns decls ∧ f.header.span = key

/-- The types of structs and functions are resolved in the store of the registered module. -/
private theorem preparation_learns (hcontinue : options.continueOnError = true) (hparsed : Parsed decls)
    (hrun : Phase.runAll options Phase.preparation (decls.map ({ decl := · })) { store := {} } = .ok (items, p)) :
    ∃ m x s₁, Registered decls m x s₁ ∧ s₁.Learns p.store := by
  obtain ⟨items₁, p₁, hrun₁, h₁⟩ := Phase.run_ends (Registering options decls) (fun _ _ _ _ => Registering.step hparsed)
    (Registering.start options decls)
  have hunderway := h₁.underway hparsed
  have hitems : items₁.map (·.decl) = decls := by simpa using h₁.items
  obtain ⟨m, x, hregistered⟩ := h₁.registered (hunderway.accounted.running hcontinue)
  obtain ⟨items₂, p₂, hrun₂, -, h₂, hlearns₂⟩ := (studies_structs options decls).run hunderway
  obtain ⟨items₃, p₃, hrun₃, -, -, hlearns₃⟩ := (studies_signatures options hparsed).run h₂
  simp only [Phase.preparation, Phase.runAll, hrun₁, ok_bind, hrun₂, hrun₃] at hrun
  cases hrun
  exact ⟨m, x, p₁.store, hitems ▸ hregistered, hlearns₂.trans hlearns₃⟩

private theorem Registered.plain {m x : Frame} (h : Registered decls m x s) {fr : FrameId}
    {f : Frame} {v : String × Variable}
    (hf : s.frame? fr = some f) (hv : v ∈ f.values) : v.2.type = .empty := by
  have hmodule : v ∈ m.values → v.2.type = .empty := by
    intro hv
    rw [h.values] at hv
    obtain ⟨w, hw, rfl⟩ := List.mem_map.mp hv
    obtain ⟨-, g, rfl, -⟩ := mem_functionsBehind hw
    rfl
  rcases h.frame_cases hf with ⟨-, rfl⟩ | ⟨-, rfl⟩ | ⟨-, rfl⟩
  · cases hv
  · exact hmodule hv
  · exact hmodule (h.exportedValues v hv)

/-- When all types are resolved, bodies can be checked. -/
theorem Inspecting.ready (hcontinue : options.continueOnError = true) (hparsed : Parsed decls)
    (hrun : Phase.runAll options Phase.preparation (decls.map ({ decl := · })) { store := {} } = .ok (items, p))
    (h : Inspecting options decls [] items p) : p.store.Ready decls := by
  have hrunning := h.checked.1.accounted.running hcontinue
  have hitems : decls = items.map (·.decl) := by simpa using h.behind
  obtain ⟨m, x, s₁, hregistered, hlearns⟩ := preparation_learns hcontinue hparsed hrun
  have hframe : ∀ fr, p.store.frame? fr = s₁.frame? fr := fun fr => by
    rw [Store.frame?, hlearns.frames_eq, Store.frame?]
  refine ⟨?_, h.fit hrunning, ?_, fun fr f v hf hv => hregistered.plain (hframe fr ▸ hf) hv, fun key => ?_⟩
  · have hresting := h.checked.1.resting hrunning
    rwa [← hitems] at hresting
  · rw [hlearns.frames_eq, hregistered.frames]
    rfl
  · rcases hregistered.functions key with hnew | ⟨-, howns⟩
    · rw [hlearns.unregistered key (by rw [hnew]), hnew]
      exact .inl rfl
    · exact .inr howns

namespace Store.Ready

variable {decls : List Decl} {s : Store} (h : s.Ready decls)

include h

private theorem known_primitive {t : TypeId} (ht : t < Types.primitives.length) : s.Known t := by
  have hentry := (h.resting.sound.types.primitives t _).mpr (List.getElem?_eq_getElem ht)
  exact ⟨_, hentry, fun _ _ heq => by cases heq⟩

/-- A struct that can be named is decided. -/
theorem closed {t : TypeId} {e : TypeEntry} (ht : s.Known t) (he : s.typeAt? t = some e) : e.Closed := by
  rintro decl state rfl
  obtain ⟨e', he', hregistered⟩ := ht
  cases he.symm.trans he'
  cases state with
  | unresolved =>
    have hnone := h.fit.structs t decl he
    rw [hregistered decl _ rfl] at hnone
    cases hnone
  | resolving => exact absurd he h.resting.not_resolving
  | resolved fields => exact .inl ⟨fields, rfl⟩
  | failed why => exact .inr ⟨why, rfl⟩

private theorem known_signature {key : Span} {t : TypeId} (ht : (s.function key).signature = some t) : s.Known t := by
  obtain ⟨params, returns, he, -⟩ := h.resting.sound.functions.signature key t ht
  exact ⟨_, he, fun _ _ heq => by cases heq⟩

/-- A struct that is registered can be named. -/
theorem known_struct {d : StructDecl} {r : StructRecord} (hd : .struct d ∈ decls)
    (hr : s.structs.find? d.span = some r) :
    s.Known r.type := by
  have howns : (Decl.struct d).Owns decls := by
    by_contra hother
    exact (h.resting.taken _ hd hother).unnoted (by rw [Decl.Noted, hr]; rfl)
  obtain ⟨t, state, hrecord, he⟩ := h.resting.structs d howns
  cases hr.symm.trans hrecord
  exact ⟨_, he, fun _ _ heq => by cases heq; exact hrecord⟩

end Store.Ready

/-! ### Stores that differ by numbers -/

/-- Types that can be named and the frames of the module are the same; problems have the same cause at matched spans. -/
def knownMatching (s : Store) (span : Span → Span → Prop) : Matching where
  span := span
  type t t' := t = t' ∧ s.Known t
  frame fr fr' := fr = fr' ∧ fr < 3
  problem d d' := span d.span d'.span ∧ d'.cause = d.cause

section

variable {m : Matching} {span : Span → Span → Prop} (hm : m.Exact) (hs : s.Matches m s') (h : s.Ready decls)
  (hspan : ∀ a a', m.span a a' → span a a')

include hm hspan

private theorem known_problem {d d' : Diagnostic} (hd : m.problem d d') : (knownMatching s span).problem d d' := by
  obtain ⟨ha, hc⟩ := hm.problem.mp hd
  exact ⟨hspan _ _ ha, hc⟩

include h

private theorem TypeEntry.Matches.known {e e' : TypeEntry} {t : TypeId} (he : e.Matches m e')
    (ht : s.typeAt? t = some e) :
    e.Matches (knownMatching s span) e' := by
  have hsame : ∀ {u u' : TypeId}, m.type u u' → s.Known u → (knownMatching s span).type u u' := fun hu hknown =>
    ⟨hm.rigid.type_iff.mp hu, hknown⟩
  cases he with
  | primitive => exact .primitive
  | reference hu => exact .reference (hsame hu (h.resting.sound.types.references t _ ht).2)
  | function hps hr =>
    obtain ⟨hparams, -, hreturns⟩ := h.resting.sound.types.functionTypes t _ _ ht
    exact .function (forall₂_of_mem hps fun u hu u' _ huu' => hsame huu' (hparams u hu).2.1) (hsame hr hreturns.1)
  | struct hd hstate =>
    refine .struct (hd.imp hspan) ?_
    cases hstate with
    | unresolved => exact .unresolved
    | resolving => exact .resolving
    | failed hwhy => exact .failed (known_problem hm hspan hwhy)
    | resolved hfields =>
      have hsettled := (h.resting.sound.types.resolved t _ _ ht).1
      exact .resolved (forall₂_of_mem hfields fun f hf f' _ hff' => ⟨hff'.1, hsame hff'.2 (hsettled f hf).1⟩)

omit hm h in
private theorem Variable.Matches.known {v v' : Variable} (hv : v.Matches m v') (hempty : v.type = .empty) :
    v.Matches (knownMatching s span) v' where
  name := hv.name
  kind := hv.kind.imp hspan
  mutable := hv.mutable
  span := hspan _ _ hv.span
  type := by
    have htype := hv.type
    rw [hempty] at htype ⊢
    generalize v'.type = t' at htype ⊢
    cases htype
    exact .empty

private theorem FunctionRecord.Matches.known {key : Span} {r' : FunctionRecord} (hr : (s.function key).Matches m r') :
    (s.function key).Alike (knownMatching s span) r' where
  variableType := by
    rw [hr.variableType]
    cases htype : (s.function key).variableType with
    | none => exact .none
    | some holder =>
      rcases h.resting.sound.functions.variableType key holder htype with ⟨rfl, -⟩ | ⟨t, rfl, ht⟩
      · exact .some .empty
      · exact .some (.owned ⟨rfl, h.known_signature ht⟩)
  signature := by
    rw [hr.signature]
    cases ht : (s.function key).signature with
    | none => exact .none
    | some t => exact .some ⟨rfl, h.known_signature ht⟩
  failure _ := hr.failure.imp fun _ _ => known_problem hm hspan

omit hm in
private theorem Frame.Matches.known {fr : FrameId} {f f' : Frame} (hf : f.Matches m f') (hfr : s.frame? fr = some f) :
    f.Alike (knownMatching s span) f' where
  outer := by
    rw [hf.outer]
    refine List.forall₂_same.mpr fun o ho => ⟨rfl, ?_⟩
    exact Nat.lt_trans (h.resting.sound.frames.outer fr f hfr o ho) (h.size ▸ Store.frame_lt_size hfr)
  values name := by
    have hvalues := forall₂_of_mem (S := fun a b => b.1 = a.1 ∧ a.2.Matches (knownMatching s span) b.2) hf.values
      fun a ha b _ hab => ⟨hab.1, hab.2.known hspan (h.plain fr f a hfr ha)⟩
    exact rel_lookup hvalues name
  types name := by
    rw [Frame.findType, Frame.findType, hf.types]
    cases hfound : f.types.lookup name with
    | none => exact .none
    | some t => exact .some ⟨rfl, h.resting.sound.frames.types fr f name t hfr (Store.mem_of_lookup hfound)⟩

include hs

/-- Stores that are ready and differ by spans differ by numbers, also if more spans are matched that no function has. -/
theorem Store.Matches.renumbered (h' : s'.Ready decls')
    (hexact : ∀ {a a' b b'}, span a a' → span b b' → (a' = b' ↔ a = b))
    (hkeys : ∀ key key', span key key' → m.span key key' ∨ s.function key = {} ∧ s'.function key' = {}) :
    s.Renumbered (knownMatching s span) s' where
  span_iff := hexact
  type_iff := by
    rintro t _ u _ ⟨rfl, -⟩ ⟨rfl, -⟩
    exact Iff.rfl
  frame_iff := by
    rintro fr _ g _ ⟨rfl, -⟩ ⟨rfl, -⟩
    exact Iff.rfl
  problem c ha := ⟨ha, rfl⟩
  primitive ht := ⟨rfl, h.known_primitive ht⟩
  module := ⟨rfl, by decide⟩
  exported := ⟨rfl, by decide⟩
  ordered := ⟨h.resting.sound.types.ordered, h'.resting.sound.types.ordered⟩
  types := by
    rintro t _ ⟨rfl, ht⟩
    obtain ⟨e, he, -⟩ := id ht
    have hentries := rel_getElem? hs.types.entries t
    rw [show s.types.entries[t]? = some e from he] at hentries
    generalize hright : s'.types.entries[t]? = o at hentries
    cases hentries with
    | some hmatch => exact ⟨e, _, he, hright, hmatch.known hm h hspan he, h.closed ht he⟩
  frames := by
    rintro fr _ ⟨rfl, hfr⟩
    have hlt : fr < s.frames.frames.length := by
      rw [show s.frames.frames.length = 3 from h.size]
      exact hfr
    have hframes := rel_getElem? hs.frames fr
    rw [List.getElem?_eq_getElem hlt] at hframes
    generalize hright : s'.frames.frames[fr]? = o at hframes
    cases hframes with
    | some hmatch =>
        exact ⟨_, _, List.getElem?_eq_getElem hlt, hright, hmatch.known h hspan (List.getElem?_eq_getElem hlt)⟩
  functions := by
    intro key key' hkey
    -- the records match, or there are none
    rcases hkeys key key' hkey with hmatched | ⟨hnew, hnew'⟩
    · exact (hs.function hm.rigid hmatched).known hm h hspan
    · rw [hnew, hnew']
      exact ⟨.none, .none, fun _ => .none⟩

end

end RainCheck
