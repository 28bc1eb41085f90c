import RainCheck.Proofs.Grounding
import RainCheck.Proofs.Repeating

/-!
# Frames inside of functions

Around a frame of a function body there are the frames of the blocks around it and of the parameters, and behind these
the frames of the module and of the primitive types.
* No type is declared in a function (`Inner`), so that names of types mean the same everywhere.
* A variable is found in one of the local frames, which then has its name (`Sees`), or in the module.
-/

namespace RainCheck

/-- What is behind the names of a frame stays, and new names have their variables. -/
private theorem Frame.kind_of_names {f f' : Frame} {vs : List Variable} (h : f'.names = f.names ++ named vs)
    {p : String × Variable} (hp : p ∈ f'.values) :
    (∃ q ∈ f.values, q.2.kind = p.2.kind ∧ q.2.span = p.2.span) ∨ ∃ v ∈ vs, v.kind = p.2.kind ∧ v.span = p.2.span := by
  have hmem : (p.1, p.2.bare) ∈ f'.names := List.mem_map.mpr ⟨p, hp, rfl⟩
  rw [h] at hmem
  rcases List.mem_append.mp hmem with hmem | hmem
  · obtain ⟨q, hq, heq⟩ := List.mem_map.mp hmem
    have hbare : q.2.bare = p.2.bare := congrArg Prod.snd heq
    exact .inl ⟨q, hq, by simpa [Variable.bare] using congrArg Variable.kind hbare,
      by simpa [Variable.bare] using congrArg Variable.span hbare⟩
  · obtain ⟨v, hv, heq⟩ := List.mem_map.mp hmem
    have hbare : v = p.2.bare := congrArg Prod.snd heq
    exact .inr ⟨v, hv, by rw [hbare]; rfl, by rw [hbare]; rfl⟩

private theorem Frame.isSome_findVariable {f f' : Frame} {vs : List Variable} (h : f'.names = f.names ++ named vs)
    {name : String} :
    (f'.findVariable name).isSome = ((f.findVariable name).isSome || (vs.find? (·.name = name)).isSome) := by
  have hnames : ∀ g : Frame, (g.findVariable name).isSome = (g.names.lookup name).isSome := fun g => by
    rw [← Option.isSome_map (f := Variable.bare), Frame.findVariable, lookup_map_bare]
    rfl
  rw [hnames f', hnames f, h, List.lookup_append, Option.isSome_or, lookup_named]

namespace Store

variable {L : Listing} {s s' : Store} {fr : FrameId} {f : Frame} {gs : List FrameId} {known known' : Span → Prop}
  {name : String}

/-- The frames from a frame outwards, up to that of the module. -/
def Within (s : Store) (fr : FrameId) (gs : List FrameId) : Prop :=
  ∃ f, s.frame? fr = some f ∧ fr :: f.outer = gs ++ [FrameId.module, FrameId.builtin]

/-- No type is declared in the local frames around a frame, and functions declared there have a property. -/
def Inner (s : Store) (fr : FrameId) (known : Span → Prop) : Prop :=
  ∃ gs, s.Within fr gs ∧ ∀ g ∈ gs, ∃ f, s.frame? g = some f ∧ f.types = [] ∧
    ∀ p ∈ f.values, p.2.kind.isFunction = true → known p.2.span

/-- A name is declared in one of the local frames around a frame. -/
def Sees (s : Store) (fr : FrameId) (name : String) : Prop :=
  ∃ gs, s.Within fr gs ∧ ∃ g ∈ gs, ∃ f, s.frame? g = some f ∧ (f.findVariable name).isSome = true

/-- The type of a function is resolved. -/
def Resolved (s : Store) (key : Span) : Prop := (s.function key).signature.isSome = true

theorem Resolved.grow {key : Span} (hg : s.GrowsTo s') (h : s.Resolved key) : s'.Resolved key := by
  obtain ⟨sig, hsig⟩ := Option.isSome_iff_exists.mp h
  exact Option.isSome_iff_exists.mpr ⟨sig, (hg.functions key).signature sig hsig⟩

theorem Within.unique {hs : List FrameId} (h : s.Within fr gs) (h' : s.Within fr hs) : hs = gs := by
  obtain ⟨f, hf, hgs⟩ := h
  obtain ⟨f', hf', hhs⟩ := h'
  cases hf.symm.trans hf'
  exact List.append_cancel_right (hhs.symm.trans hgs)

theorem Within.grow (hg : s.GrowsTo s') (h : s.Within fr gs) : s'.Within fr gs := by
  obtain ⟨f, hf, hgs⟩ := h
  obtain ⟨f', hf', hgrows⟩ := hg.frames fr f hf
  exact ⟨f', hf', by rw [hgrows.outer, hgs]⟩

theorem Sees.grow (hg : s.GrowsTo s') (h : s.Sees fr name) : s'.Sees fr name := by
  obtain ⟨gs, hgs, g, hmem, f, hf, hfound⟩ := h
  obtain ⟨f', hf', hgrows⟩ := hg.frames g f hf
  obtain ⟨v, hv⟩ := Option.isSome_iff_exists.mp hfound
  obtain ⟨rest, hrest⟩ := hgrows.values
  refine ⟨gs, hgs.grow hg, g, hmem, f', hf', ?_⟩
  rw [Frame.findVariable] at hv ⊢
  rw [← hrest, List.lookup_append, hv]
  rfl

theorem Inner.mono (h : s.Inner fr known) (hknown : ∀ key, known key → known' key) : s.Inner fr known' := by
  obtain ⟨gs, hgs, hframes⟩ := h
  refine ⟨gs, hgs, fun g hg => ?_⟩
  obtain ⟨f, hf, htypes, hvalues⟩ := hframes g hg
  exact ⟨f, hf, htypes, fun p hp hfunction => hknown _ (hvalues p hp hfunction)⟩

/-- More names are declared in the innermost frame. -/
theorem Inner.declare {vs : List Variable} (h : s.Inner fr known) (hg : s.GrowsTo s') (hleaves : s.Leaves s' fr)
    (hadds : s.Adds s' fr vs) (hvs : ∀ v ∈ vs, v.kind.isFunction = true → known v.span) : s'.Inner fr known := by
  obtain ⟨gs, hgs, hframes⟩ := h
  refine ⟨gs, hgs.grow hg, fun g hmem => ?_⟩
  obtain ⟨f, hf, htypes, hvalues⟩ := hframes g hmem
  by_cases hfr : g = fr
  · subst hfr
    obtain ⟨f', hf', hnames⟩ := hadds f hf
    obtain ⟨f'', hf'', hgrows⟩ := hg.frames g f hf
    cases hf'.symm.trans hf''
    refine ⟨f', hf', by rw [hgrows.types, htypes], fun p hp hfunction => ?_⟩
    rcases Frame.kind_of_names hnames hp with ⟨q, hq, hkind, hspan⟩ | ⟨v, hv, hkind, hspan⟩
    · exact hspan ▸ hvalues q hq (by rw [hkind, hfunction])
    · exact hspan ▸ hvs v hv (by rw [hkind, hfunction])
  · exact ⟨f, hleaves g f hfr hf, htypes, hvalues⟩

theorem frame_get (hf : s.frame? fr = some f) : s.frames.get fr = .ok f := itemAt_eq_ok_iff.mpr hf

/-- A search goes through the local frames, and then to the module. -/
private theorem Within.search {α : Type} (find : Frame → Option α) (h : s.Within fr gs)
    (hmodule : s.Within FrameId.module []) :
    s.frames.search find FrameId.module = s.frames.searchIn find [FrameId.module, FrameId.builtin] ∧
      s.frames.search find fr = s.frames.searchIn find (gs ++ [FrameId.module, FrameId.builtin]) := by
  obtain ⟨f, hf, hgs⟩ := h
  obtain ⟨m, hm, hmodule⟩ := hmodule
  constructor
  · rw [Frames.search, Frames.chain, frame_get hm]
    change s.frames.searchIn find (FrameId.module :: m.outer) = _
    rw [hmodule]
    rfl
  · rw [Frames.search, Frames.chain, frame_get hf]
    change s.frames.searchIn find (fr :: f.outer) = _
    rw [hgs]

/-- Names of types mean the same everywhere in a function as in the module. -/
theorem Inner.lookupType (h : s.Inner fr known) (hmodule : s.Within FrameId.module []) (name : String) :
    s.frames.lookupType fr name = s.frames.lookupType FrameId.module name := by
  obtain ⟨gs, hgs, hframes⟩ := h
  obtain ⟨hsearch, hsearch'⟩ := hgs.search (·.findType name) hmodule
  rw [Frames.lookupType, Frames.lookupType, hsearch, hsearch']
  clear hsearch hsearch' hgs
  induction gs with
  | nil => rfl
  | cons g gs ih =>
    obtain ⟨f, hf, htypes, -⟩ := hframes g List.mem_cons_self
    have hnone : f.findType name = none := by rw [Frame.findType, htypes]; rfl
    rw [List.cons_append, Frames.searchIn, frame_get hf, ok_bind, hnone]
    exact ih fun g hg => hframes g (List.mem_cons_of_mem _ hg)

/-- A name means a local variable, or what it means in the module. -/
theorem Inner.lookup (h : s.Inner fr known) (hmodule : s.Within FrameId.module []) (name : String) :
    (s.Sees fr name ∧ ∃ v, s.frames.lookup fr name = .ok (some v) ∧ (v.kind.isFunction = true → known v.span)) ∨
      ¬s.Sees fr name ∧ s.frames.lookup fr name = s.frames.lookup FrameId.module name := by
  obtain ⟨gs, hgs, hframes⟩ := h
  have hsearch := (hgs.search (·.findVariable name) hmodule).2
  have hcases : (∃ g ∈ gs, ∃ f v, s.frame? g = some f ∧ f.findVariable name = some v ∧
        s.frames.searchIn (·.findVariable name) (gs ++ [FrameId.module, FrameId.builtin]) = .ok (some v)) ∨
      (∀ g ∈ gs, ∀ f, s.frame? g = some f → f.findVariable name = none) ∧
        s.frames.searchIn (·.findVariable name) (gs ++ [FrameId.module, FrameId.builtin]) =
          s.frames.searchIn (·.findVariable name) [FrameId.module, FrameId.builtin] := by
    clear hsearch hgs
    induction gs with
    | nil => exact .inr ⟨by simp, rfl⟩
    | cons g gs ih =>
      obtain ⟨f, hf, -⟩ := hframes g List.mem_cons_self
      rw [List.cons_append, Frames.searchIn, frame_get hf, ok_bind]
      cases hfound : f.findVariable name with
      | some v => exact .inl ⟨g, List.mem_cons_self, f, v, hf, hfound, rfl⟩
      | none =>
        rcases ih fun g hg => hframes g (List.mem_cons_of_mem _ hg) with ⟨g', hg', h⟩ | ⟨hnone, heq⟩
        · exact .inl ⟨g', List.mem_cons_of_mem _ hg', h⟩
        · refine .inr ⟨fun g' hg' f' hf' => ?_, heq⟩
          rcases List.mem_cons.mp hg' with rfl | hg'
          · cases hf.symm.trans hf'
            exact hfound
          · exact hnone g' hg' f' hf'
  rcases hcases with ⟨g, hg, f, v, hf, hfound, heq⟩ | ⟨hnone, heq⟩
  · refine .inl ⟨⟨gs, hgs, g, hg, f, hf, by rw [hfound]; rfl⟩, v, hsearch.trans heq, ?_⟩
    obtain ⟨f', hf', -, hvalues⟩ := hframes g hg
    cases hf.symm.trans hf'
    exact hvalues (name, v) (Store.mem_of_lookup hfound)
  · refine .inr ⟨?_, ?_⟩
    · rintro ⟨gs', hgs', g, hg, f, hf, hfound⟩
      cases hgs.unique hgs'
      rw [hnone g hg f hf] at hfound
      cases hfound
    · exact (hsearch.trans heq).trans (hgs.search _ hmodule).1.symm

/-- Around the frame of the module there is only that of the primitive types. -/
theorem Shows.within_module {functions : List Variable} (hs : s.FramesSound L)
    (h : s.Shows FrameId.module [functions]) :
    s.Within FrameId.module [] := by
  obtain ⟨f, hf, -, houter⟩ := h
  refine ⟨f, hf, ?_⟩
  obtain ⟨o, rest, -, hrest, heq⟩ := List.forall₂_cons_right_iff.mp houter
  obtain rfl := List.forall₂_nil_right_iff.mp hrest
  have ho : o < FrameId.module := hs.outer _ f hf o (by rw [heq]; exact List.mem_cons_self)
  obtain rfl : o = FrameId.builtin := Nat.lt_one_iff.mp ho
  rw [heq]
  rfl

theorem Within.inner (h : s.Within fr []) : s.Inner fr known := ⟨[], h, by simp⟩

theorem Within.not_sees (h : s.Within fr []) : ¬s.Sees fr name := by
  rintro ⟨gs, hgs, g, hg, -⟩
  cases h.unique hgs
  cases hg

/-- A frame that is there stays when another one is added. -/
theorem frame_addFrame {outer : List FrameId} (hf : s.frame? fr = some f) : (s.addFrame outer).frame? fr = some f := by
  have hlt : fr < s.frames.size := (List.getElem?_eq_some_iff.mp hf).1
  rw [frame?_addFrame, if_neg (Nat.ne_of_lt hlt), hf]

private theorem Within.nest (h : s.Within fr gs) (hf : s.frame? fr = some f) :
    (s.addFrame (fr :: f.outer)).Within s.frames.size (s.frames.size :: gs) := by
  obtain ⟨f', hf', hgs⟩ := h
  cases hf.symm.trans hf'
  exact ⟨_, by rw [frame?_addFrame, if_pos rfl], by rw [hgs]; rfl⟩

/-- An empty frame inside of another one. -/
theorem Inner.nest (h : s.Inner fr known) (hf : s.frame? fr = some f) :
    (s.addFrame (fr :: f.outer)).Inner s.frames.size known := by
  obtain ⟨gs, hgs, hframes⟩ := h
  refine ⟨_, hgs.nest hf, fun g hg => ?_⟩
  rcases List.mem_cons.mp hg with rfl | hg
  · exact ⟨_, by rw [frame?_addFrame, if_pos rfl], rfl, by simp⟩
  · obtain ⟨f', hf', h⟩ := hframes g hg
    exact ⟨f', frame_addFrame hf', h⟩

theorem Inner.sees_nest (h : s.Inner fr known) (hf : s.frame? fr = some f) :
    (s.addFrame (fr :: f.outer)).Sees s.frames.size name ↔ s.Sees fr name := by
  obtain ⟨gs, hgs, hframes⟩ := h
  constructor
  · rintro ⟨gs', hgs', g, hg, f', hf', hfound⟩
    cases (hgs.nest hf).unique hgs'
    rcases List.mem_cons.mp hg with rfl | hg
    · rw [frame?_addFrame, if_pos rfl] at hf'
      cases hf'
      cases hfound
    · obtain ⟨f'', hf'', -⟩ := hframes g hg
      cases hf'.symm.trans (frame_addFrame hf'')
      exact ⟨gs, hgs, g, hg, _, hf'', hfound⟩
  · rintro ⟨gs', hgs', g, hg, f', hf', hfound⟩
    cases hgs.unique hgs'
    exact ⟨_, hgs.nest hf, g, List.mem_cons_of_mem _ hg, f', frame_addFrame hf', hfound⟩

/-- What is seen in a frame in which more names are declared. -/
theorem Sees.of_adds {vs : List Variable} (h : s'.Sees fr name) (hinner : s.Inner fr known) (hg : s.GrowsTo s')
    (hleaves : s.Leaves s' fr) (hadds : s.Adds s' fr vs) : s.Sees fr name ∨ ∃ v ∈ vs, v.name = name := by
  obtain ⟨gs, hgs, hframes⟩ := hinner
  obtain ⟨gs', hgs', g, hmem, f', hf', hfound⟩ := h
  cases (hgs.grow hg).unique hgs'
  obtain ⟨f, hf, -⟩ := hframes g hmem
  by_cases hfr : g = fr
  · subst hfr
    obtain ⟨f'', hf'', hnames⟩ := hadds f hf
    cases hf'.symm.trans hf''
    rw [Frame.isSome_findVariable hnames, Bool.or_eq_true] at hfound
    rcases hfound with hfound | hfound
    · exact .inl ⟨gs, hgs, g, hmem, f, hf, hfound⟩
    · obtain ⟨v, hv, hname⟩ := List.find?_isSome.mp hfound
      exact .inr ⟨v, hv, of_decide_eq_true hname⟩
  · cases hf'.symm.trans (hleaves g f hfr hf)
    exact .inl ⟨gs, hgs, g, hmem, f', hf, hfound⟩

/-- A name that is declared in a local frame is seen there. -/
theorem Inner.sees_declared {vs : List Variable} {v : Variable} (h : s.Inner fr known) (hlocal : fr ≠ FrameId.module)
    (hg : s.GrowsTo s') (hadds : s.Adds s' fr vs) (hv : v ∈ vs) : s'.Sees fr v.name := by
  obtain ⟨gs, hgs, hframes⟩ := h
  obtain ⟨f, hf, hchain⟩ := hgs
  have hmem : fr ∈ gs := by
    cases gs with
    | nil => exact absurd (List.cons.inj hchain).1 hlocal
    | cons g gs => exact (List.cons.inj hchain).1 ▸ List.mem_cons_self
  obtain ⟨f', hf', hnames⟩ := hadds f hf
  refine ⟨gs, Within.grow hg ⟨f, hf, hchain⟩, fr, hmem, f', hf', ?_⟩
  rw [Frame.isSome_findVariable hnames, Bool.or_eq_true]
  exact .inr (List.find?_isSome.mpr ⟨v, hv, decide_eq_true rfl⟩)

/-- The own frame of a nested function, inside of the frame of the module. -/
def withOwn (s : Store) (m : Frame) (header : Header) : Store :=
  (s.addFrame (FrameId.module :: m.outer)).addVariable s.frames.size
    { outer := FrameId.module :: m.outer } header.binding

end Store

namespace Action

variable {s s' : Store} {fr own : FrameId} {f : Frame} {header : Header}

theorem run_nest (hf : s.frame? fr = some f) :
    (nest fr).run.run s = (.ok s.frames.size, s.addFrame (fr :: f.outer)) := by
  have hnest : s.frames.nest fr = .ok (s.frames.size, (s.addFrame (fr :: f.outer)).frames) := by
    simp [Frames.nest, Store.frame_get hf, Store.addFrame]
  unfold nest
  change (lift (s.frames.nest fr) >>= fun p =>
    (do set { s with frames := p.2 }; return p.1 : Action FrameId)).run.run s = _
  rw [hnest]
  rfl

private theorem nest_inv {inner : FrameId} (h : (nest fr).Yields s inner s') :
    ∃ f, s.frame? fr = some f ∧ inner = s.frames.size ∧ s' = s.addFrame (fr :: f.outer) := by
  cases hf : s.frame? fr with
  | some f =>
    rw [show (nest fr).Yields s inner s' ↔ _ from Iff.rfl, Yields, run_nest hf] at h
    cases h
    exact ⟨f, rfl, rfl, rfl⟩
  | none =>
    have hnest : ∃ e, s.frames.nest fr = .error e := by
      unfold Frames.nest Frames.get
      cases hget : itemAt s.frames.frames fr with
      | error e => exact ⟨e, rfl⟩
      | ok f =>
        rw [show s.frame? fr = some f from itemAt_eq_ok_iff.mp hget] at hf
        cases hf
    obtain ⟨e, he⟩ := hnest
    change (lift (s.frames.nest fr) >>= fun p =>
      (do set { s with frames := p.2 }; return p.1 : Action FrameId)).run.run s = _ at h
    rw [he] at h
    cases h

theorem run_declare {v : Variable} (hf : s.frame? fr = some f) :
    (declare fr v).run.run s =
      if f.has v.name then (.error (.refused ⟨v.span, .duplicateDeclaration v.name⟩), s)
        else (.ok (), s.addVariable fr f v) := by
  unfold declare updateFrames
  change (liftStop (s.frames.declare fr v) >>= fun frames => (set { s with frames } : Action Unit)).run.run s = _
  unfold Frames.declare
  rw [Store.frame_get hf]
  cases hhas : f.has v.name with
  | true => simp [hhas, Stop.lift]; rfl
  | false => simp [hhas, Stop.lift]; rfl

theorem run_registerFunction (h : (s.function header.span).variableType.isSome = true) :
    (registerFunction fr header).run.run s = (.ok (), s) := by
  unfold registerFunction
  rw [run_bind]
  change (if (s.function header.span).variableType.isSome = true then pure () else _ : Action Unit).run.run s = _
  rw [if_pos h]
  rfl

/-- A nested function is entered in a frame of the module, in which there is its own name. -/
theorem run_enterNested {s₁ : Store} {m : Frame} (hregister : (registerFunction fr header).Yields s () s₁)
    (hm : s₁.frame? FrameId.module = some m) :
    (enterNested fr header).run.run s = (.ok s₁.frames.size, s₁.withOwn m header) := by
  have hown : (s₁.addFrame (FrameId.module :: m.outer)).frame? s₁.frames.size =
      some { outer := FrameId.module :: m.outer } := by
    rw [Store.frame?_addFrame, if_pos rfl]
  unfold enterNested
  rw [run_bind, show (registerFunction fr header).run.run s = (.ok (), s₁) from hregister]
  dsimp only
  rw [run_bind, run_nest hm]
  dsimp only
  rw [run_bind, run_declare hown]
  rfl

/-- A function is entered with its type, in an empty frame. -/
theorem enterFunction_inv {entry : Entry} (h : (enterFunction fr header).Yields s entry s') :
    ∃ s₁ f, (resolveSignature fr header.span header.prototype).Yields s entry.signature s₁ ∧
      s₁.typeAt? entry.signature = some (.function entry.params entry.returns) ∧ s₁.frame? fr = some f ∧
      entry.frame = s₁.frames.size ∧ s' = s₁.addFrame (fr :: f.outer) := by
  unfold enterFunction at h
  obtain ⟨sig, s₁, hsig, h⟩ := yields_bind.mp h
  obtain ⟨e, _, hread, h⟩ := yields_bind.mp h
  obtain ⟨he, rfl⟩ := yields_fromTypes.mp hread
  cases e with
  | function params returns =>
    obtain ⟨inner, s₂, hnest, h⟩ := yields_bind.mp h
    obtain ⟨rfl, rfl⟩ := yields_pure.mp h
    obtain ⟨f, hf, rfl, rfl⟩ := nest_inv hnest
    exact ⟨s₁, f, hsig, Store.entry_of_get he, hf, rfl, rfl⟩
  | _ => exact absurd h yields_fail

theorem run_enterFunction {sig returns : TypeId} {params : List TypeId}
    (hsig : (s.function header.span).signature = some sig)
    (he : s.typeAt? sig = some (.function params returns)) (hf : s.frame? fr = some f) :
    (enterFunction fr header).run.run s = (.ok ⟨sig, params, returns, s.frames.size⟩, s.addFrame (fr :: f.outer)) := by
  unfold enterFunction
  rw [run_bind, run_resolveSignature hsig]
  dsimp only
  rw [run_bind, show (fromTypes (·.get sig)).run.run s = (.ok _, s) from
    yields_fromTypes.mpr ⟨Store.get_of_entry he, rfl⟩]
  dsimp only [TypeEntry.function?]
  rw [run_bind, run_nest hf]
  rfl

end Action

end RainCheck
