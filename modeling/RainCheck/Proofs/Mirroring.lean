import RainCheck.Proofs.Binding
import RainCheck.Proofs.Nesting
import RainCheck.Proofs.Preparation
import RainCheck.Proofs.Recompilation

/-!
# Exported names

The frame for others mirrors the frame of the module (`Mirrored`): it has the types and the variables of those exported
declarations that are registered in the module, in the order of the text.
* (step) Registering one more declaration keeps this, whether its name is taken or not.
* (phase) So does the first phase, even if it ends with a declaration that is refused; those behind are not registered.
* (compilation) The later phases leave both frames as they are.

A declaration is refused only because its name is taken in the frame in which it stands
(`Decl.Attempted.registersIn`), never because of the names for others.
-/

namespace RainCheck

open RainCheck.Action

/-! ### What a frame has of a declaration -/

/-- Whether a type is that of the struct declared at a place. -/
def TypeEntry.isStructAt (span : Span) : TypeEntry → Bool
  | .struct d _ => d.span = span
  | _ => false

/-- The name and the type of a declared struct, if a frame has the type of this very struct by that name. -/
def Store.ownType? (s : Store) (f : Frame) : Decl → Option (String × TypeId)
  | .struct d => ((f.findType d.name).filter fun t => (s.typeAt? t).any (TypeEntry.isStructAt d.span)).map (d.name, ·)
  | .function _ => none

/-- The variable of a declared function, if a frame has the variable of this very function by its name. -/
def Frame.ownVariable? (f : Frame) : Decl → Option Variable
  | .struct _ => none
  | .function g => (f.findVariable g.header.name).filter (·.span = g.header.span)

/-- The frame `x` has what the frame `m` has of the exported ones among some declarations, in their order. -/
structure Mirrored (decls : List Decl) (m x : Frame) (s : Store) : Prop where
  types : x.types = (decls.filter Decl.exported).filterMap (s.ownType? m)
  values : x.values = named ((decls.filter Decl.exported).filterMap m.ownVariable?)

section

variable {decls done behind : List Decl} {d : Decl} {m m' x : Frame} {s s' : Store} {name : String}

private theorem named_append (vs ws : List Variable) : named (vs ++ ws) = named vs ++ named ws := List.map_append

private theorem TypeEntry.Becomes.isStructAt {e e' : TypeEntry} (h : e.Becomes e') (span : Span) :
    e'.isStructAt span = e.isStructAt span := by
  cases h <;> rfl

/-- A type that a frame has of a struct is the one that the name of the struct means there. -/
private theorem Store.findType_of_ownType? {t : TypeId} (h : s.ownType? m d = some (name, t)) :
    m.findType name = some t := by
  cases d with
  | struct d =>
    obtain ⟨t', ht, heq⟩ := Option.map_eq_some_iff.mp h
    cases heq
    exact (Option.filter_eq_some_iff.mp ht).1
  | function f => cases h

/-- What a frame has of a struct stays, as long as its name means the same. -/
private theorem Store.ownType?_keep (hknown : ∀ p ∈ m.types, s.Known p.2)
    (hentries : ∀ id e, s.typeAt? id = some e → ∃ e', s'.typeAt? id = some e' ∧ e.Becomes e')
    (hname : m'.findType d.name = m.findType d.name) : s'.ownType? m' d = s.ownType? m d := by
  cases d with
  | function f => rfl
  | struct d =>
    have hname : m'.findType d.name = m.findType d.name := hname
    rw [Store.ownType?, Store.ownType?, hname]
    cases hfind : m.findType d.name with
    | none => rfl
    | some t =>
      obtain ⟨e, he, -⟩ := hknown _ (Store.mem_of_lookup hfind)
      obtain ⟨e', he', hbecomes⟩ := hentries t e he
      simp only [Option.filter, he, he', Option.any_some, hbecomes.isStructAt]

private theorem Frame.ownVariable?_keep (hname : m'.findVariable d.name = m.findVariable d.name) :
    m'.ownVariable? d = m.ownVariable? d := by
  cases d with
  | struct d => rfl
  | function f =>
    have hname : m'.findVariable f.header.name = m.findVariable f.header.name := hname
    rw [Frame.ownVariable?, Frame.ownVariable?, hname]

/-- What a frame gets when a struct is made known is what the module has of it, if its name is new there. -/
private theorem Frame.types_enroll (x : Frame) {t : TypeId} (hnew : m.has d.name = false)
    (hown : ∀ e, d = .struct e → s.typeAt? t = some (.struct e .unresolved)) :
    (x.enroll t d).types = x.types ++ (s.ownType? (m.enroll t d) d).toList := by
  cases d with
  | struct d =>
    have hnone : m.findType d.name = none := by
      simp only [Frame.has, Bool.or_eq_false_iff, Option.isSome_eq_false_iff, Option.isNone_iff_eq_none] at hnew
      exact hnew.2
    simp [Store.ownType?, Frame.enroll, Frame.findType_addType, hnone, Option.filter, hown d rfl, TypeEntry.isStructAt]
  | function f => simp [Store.ownType?, Frame.enroll]

private theorem Frame.values_enroll (x : Frame) (t : TypeId) (hnew : m.has d.name = false) :
    (x.enroll t d).values = x.values ++ named ((m.enroll t d).ownVariable? d).toList := by
  cases d with
  | struct d => simp [Frame.ownVariable?, Frame.enroll, named]
  | function f =>
    have hnone : m.values.lookup f.header.name = none := Store.lookup_of_has hnew
    simp [Frame.ownVariable?, Frame.enroll, Frame.findVariable, List.lookup_append, hnone, Option.filter,
      Header.binding, named]

namespace Mirrored

private theorem initial : Mirrored [] { outer := [FrameId.builtin] } {} {} := ⟨rfl, rfl⟩

/-- The frame of the module and what is known about types may change, if the declarations keep what they have. -/
private theorem congr (h : Mirrored done m x s) (htypes : ∀ d ∈ done, s'.ownType? m' d = s.ownType? m d)
    (hvalues : ∀ d ∈ done, m'.ownVariable? d = m.ownVariable? d) : Mirrored done m' x s' where
  types := h.types.trans (List.filterMap_congr fun d hd => (htypes d (List.mem_of_mem_filter hd)).symm)
  values := by
    rw [h.values, List.filterMap_congr fun d hd => (hvalues d (List.mem_of_mem_filter hd)).symm]

/-- One more declaration gets its name, in the module and for others if it is exported. -/
private theorem enroll {t : TypeId} (h : Mirrored done (m.enroll t d) x s) (hnew : m.has d.name = false)
    (hown : ∀ e, d = .struct e → s.typeAt? t = some (.struct e .unresolved)) :
    Mirrored (done ++ [d]) (m.enroll t d) (if d.exported then x.enroll t d else x) s where
  types := by
    rw [List.filter_append, List.filterMap_append, ← h.types]
    cases hexported : d.exported with
    | false => simp [hexported]
    | true => cases htype : s.ownType? (m.enroll t d) d <;> simp [hexported, Frame.types_enroll x hnew hown, htype]
  values := by
    rw [List.filter_append, List.filterMap_append, named_append, ← h.values]
    cases hexported : d.exported with
    | false => simp [hexported, named]
    | true => cases hvalue : (m.enroll t d).ownVariable? d <;> simp [hexported, Frame.values_enroll x t hnew, hvalue]

/-- Declarations of which the frame of the module has nothing. -/
private theorem skipAll (h : Mirrored done m x s)
    (hbehind : ∀ d ∈ behind, s.ownType? m d = none ∧ m.ownVariable? d = none) :
    Mirrored (done ++ behind) m x s := by
  have hnone : (behind.filter Decl.exported).filterMap (s.ownType? m) = [] :=
    List.filterMap_eq_nil_iff.mpr fun d hd => (hbehind d (List.mem_of_mem_filter hd)).1
  have hnone' : (behind.filter Decl.exported).filterMap m.ownVariable? = [] :=
    List.filterMap_eq_nil_iff.mpr fun d hd => (hbehind d (List.mem_of_mem_filter hd)).2
  constructor
  · rw [List.filter_append, List.filterMap_append, hnone, List.append_nil, h.types]
  · rw [List.filter_append, List.filterMap_append, hnone', List.append_nil, h.values]

private theorem skip (h : Mirrored done m x s) (hnone : s.ownType? m d = none ∧ m.ownVariable? d = none) :
    Mirrored (done ++ [d]) m x s :=
  h.skipAll (by simpa using hnone)

end Mirrored

namespace Registered

variable (h : Registered done m x s)
include h

/-- A variable of the module is that of a function, which has its name. -/
private theorem of_findVariable {v : Variable} (hv : m.findVariable name = some v) :
    v.name = name ∧ ∃ f, v = f.header.binding ∧ done.find? (·.name = name) = some (.function f) := by
  have hmem : (name, v) ∈ named (moduleFunctions done) := h.values ▸ Store.mem_of_lookup hv
  obtain ⟨w, hw, heq⟩ := List.mem_map.mp hmem
  cases heq
  exact ⟨rfl, (mem_functionsBehind hw).2⟩

/-- Of a declaration that stands elsewhere than the registered ones, the module has nothing. -/
private theorem owns_nothing (hapart : ∀ e ∈ done, e.span ≠ d.span) :
    s.ownType? m d = none ∧ m.ownVariable? d = none := by
  cases d with
  | struct d =>
    refine ⟨Option.map_eq_none_iff.mpr (Option.filter_eq_none_iff.mpr fun t ht hstruct => ?_), rfl⟩
    obtain ⟨e, he, -⟩ := h.known _ (Store.mem_of_lookup ht)
    rcases h.entries t e he with ⟨name, rfl⟩ | ⟨d', hd', rfl⟩
    · simp [he, TypeEntry.isStructAt] at hstruct
    · have hspan : d'.span = d.span := by simpa [he, TypeEntry.isStructAt] using hstruct
      exact hapart _ hd' hspan
  | function g =>
    refine ⟨rfl, Option.filter_eq_none_iff.mpr fun v hv hspan => ?_⟩
    obtain ⟨-, f, rfl, hfind⟩ := h.of_findVariable hv
    have hspan : f.header.span = g.header.span := of_decide_eq_true hspan
    exact hapart _ (List.mem_of_find?_eq_some hfind) hspan

/-- A name that is for others means the same there and in the module. -/
private theorem agrees (hx : Mirrored decls m x s) (hname : x.has name = true) : m.Agrees x name := by
  have htype : ∀ t, x.findType name = some t → m.findType name = some t := fun t ht => by
    have hmem := Store.mem_of_lookup ht
    rw [hx.types] at hmem
    obtain ⟨d, -, hd⟩ := List.mem_filterMap.mp hmem
    exact Store.findType_of_ownType? hd
  have hvariable : ∀ v, x.findVariable name = some v → m.findVariable name = some v := fun v hv => by
    have hmem := Store.mem_of_lookup hv
    rw [hx.values] at hmem
    obtain ⟨w, hw, heq⟩ := List.mem_map.mp hmem
    cases heq
    obtain ⟨d, -, hd⟩ := List.mem_filterMap.mp hw
    cases d with
    | struct d => cases hd
    | function g =>
      obtain ⟨hfind, -⟩ := Option.filter_eq_some_iff.mp hd
      rwa [(h.of_findVariable hfind).1]
  -- the module has a name only once, as a type or as a variable
  have honce : ∀ v, m.findVariable name = some v → m.findType name = none := fun v hv => by
    obtain ⟨-, f, -, hfind⟩ := h.of_findVariable hv
    exact h.otherNames name fun d hd => by rw [hfind] at hd; cases hd
  simp only [Frame.has, Bool.or_eq_true, Option.isSome_iff_exists] at hname
  rcases hname with ⟨v, hv⟩ | ⟨t, ht⟩
  · have hm := hvariable v hv
    refine ⟨hv.trans hm.symm, ?_⟩
    rw [honce v hm]
    refine Option.eq_none_iff_forall_ne_some.mpr fun t ht => ?_
    cases (honce v hm).symm.trans (htype t ht)
  · have hm := htype t ht
    have hnone : m.findVariable name = none :=
      Option.eq_none_iff_forall_ne_some.mpr fun v hv => by cases (honce v hv).symm.trans hm
    refine ⟨?_, ht.trans hm.symm⟩
    rw [hnone]
    refine Option.eq_none_iff_forall_ne_some.mpr fun v hv => ?_
    cases hnone.symm.trans (hvariable v hv)

end Registered

end

/-! ### One more declaration -/

section

variable {done : List Decl} {d : Decl} {m x : Frame} {s : Store}

/-- Registering one more declaration keeps the frames alike, whether its name is taken or not. -/
private theorem mirrors (h : Registered done m x s) (hx : Mirrored done m x s) (hapart : ∀ e ∈ done, e.span ≠ d.span) :
    (Phase.register FrameId.module d).Ends s
      (fun _ s' => ∃ m' x', Registered (done ++ [d]) m' x' s' ∧ Mirrored (done ++ [d]) m' x' s')
      fun why s' => why = ⟨d.span, .duplicateDeclaration d.name⟩ ∧ m.has d.name = true ∧
        Registered (done ++ [d]) m x s' ∧ Mirrored (done ++ [d]) m x s' := by
  refine (enrolls h hapart).mono ?_ ?_
  · rintro _ s' ⟨t, henrolls⟩
    have hagrees : ∀ e ∈ done, m.Agrees (m.enroll t d) e.name := fun e he =>
      m.agrees_enroll t (h.ne_of_new henrolls.new e he).symm
    have hbehind : Mirrored done (m.enroll t d) x s' := hx.congr
      (fun e he => Store.ownType?_keep h.known (fun id e he => ⟨e, henrolls.entries id e he, .refl e⟩) (hagrees e he).2)
      fun e he => Frame.ownVariable?_keep (hagrees e he).1
    exact ⟨_, _, henrolls.registered, hbehind.enroll henrolls.new henrolls.own⟩
  · intro why s' hrejects
    refine ⟨hrejects.why_eq, hrejects.taken, hrejects.registered, (hx.skip (h.owns_nothing hapart)).congr ?_ ?_⟩
    · exact fun _ _ => Store.ownType?_keep h.known (fun id e he => ⟨e, hrejects.entries id e he, .refl e⟩) rfl
    · exact fun _ _ => rfl

end

/-! ### The first phase -/

section

variable {options : Options} {decls : List Decl} {done rest items : List Item} {item : Item} {p : Progress}

/-- What holds while names are registered: those of `tried` are, and what is behind them stands behind the end. -/
structure Mirroring (decls : List Decl) (done rest : List Item) (p : Progress) : Prop where
  items : (done ++ rest).map (·.decl) = decls
  untried : ∀ i ∈ rest, i.failed = false
  frames : ∃ tried behind m x, tried ++ behind = done.map (·.decl) ∧ (p.halted = false → behind = []) ∧
    Registered tried m x p.store ∧ Mirrored tried m x p.store

private theorem Mirroring.start (decls : List Decl) :
    Mirroring decls [] (decls.map ({ decl := · })) { store := {} } where
  items := by simp [Function.comp_def]
  untried i hi := by
    obtain ⟨d, -, rfl⟩ := List.mem_map.mp hi
    rfl
  frames := ⟨[], [], _, _, rfl, fun _ => rfl, registered_initial, .initial⟩

private theorem Mirroring.step (options : Options) (hparsed : Parsed decls)
    (h : Mirroring decls done (item :: rest) p) :
    ∃ item' p', Phase.registration.step options item p = .ok (item', p') ∧
      Mirroring decls (done ++ [item']) rest p' := by
  obtain ⟨tried, behind, m, x, htried, hall, hregistered, hmirrored⟩ := h.frames
  have huntried : ∀ i ∈ rest, i.failed = false := fun i hi => h.untried i (List.mem_cons_of_mem _ hi)
  cases hhalted : p.halted with
  | true =>
    refine ⟨item, p, Phase.step_skip (.inl hhalted), by simpa using h.items, huntried, ?_⟩
    refine ⟨tried, behind ++ [item.decl], m, x, by simp [← htried], fun hp => ?_, hregistered, hmirrored⟩
    rw [hhalted] at hp
    cases hp
  | false =>
    obtain rfl := hall hhalted
    rw [List.append_nil] at htried
    have hitems : tried ++ item.decl :: rest.map (·.decl) = decls := by simpa [htried] using h.items
    have hleads : Phase.registration.Leads options item.decl p.store _ _ :=
      Phase.leads_runOn rfl (mirrors hregistered hmirrored fun e he => (hitems ▸ hparsed).span_ne he)
    rcases hleads.step hhalted (h.untried item List.mem_cons_self) with
      ⟨d, s, hstep, rfl, m', x', hframes⟩ | ⟨d, why, s, hstep, rfl, -, -, hframes⟩
    · exact ⟨_, _, hstep, by simpa using h.items, huntried, _, [], m', x', by simp [htried], fun _ => rfl, hframes⟩
    · exact ⟨_, _, hstep, by simpa using h.items, huntried, _, [], m, x, by simp [htried], fun _ => rfl, hframes⟩

/-- Behind the first phase, the frame for others mirrors that of the module. -/
theorem registration_mirrors (options : Options) (hparsed : Parsed decls) :
    ∃ items p tried m x, Phase.registration.run options (decls.map ({ decl := · })) { store := {} } = .ok (items, p) ∧
      tried <+: decls ∧ Registered tried m x p.store ∧ Mirrored decls m x p.store := by
  obtain ⟨items, p, hrun, h⟩ := Phase.run_ends (Mirroring decls)
    (fun _ _ _ _ => Mirroring.step options hparsed) (Mirroring.start decls)
  obtain ⟨tried, behind, m, x, htried, -, hregistered, hmirrored⟩ := h.frames
  obtain rfl : tried ++ behind = decls := by simpa [htried] using h.items
  refine ⟨items, p, tried, m, x, hrun, List.prefix_append _ _, hregistered, hmirrored.skipAll fun d hd => ?_⟩
  obtain ⟨before, after, rfl⟩ := List.append_of_mem hd
  rw [← List.append_assoc] at hparsed
  exact hregistered.owns_nothing fun e he => hparsed.span_ne (List.mem_append_left _ he)

/-! ### The later phases -/

/-- A step leaves the store alone, or applies the phase to a declaration that has not failed. -/
theorem Phase.step_store {phase : Phase} {item' : Item} {p' : Progress}
    (h : phase.step options item p = .ok (item', p')) :
    p'.store = p.store ∨ p.halted = false ∧ item.failed = false ∧
      p'.store = (phase.apply options item.decl p.store).2.store := by
  unfold Phase.step at h
  split at h
  · cases h
    exact .inl rfl
  · rename_i hrunning
    obtain ⟨hhalted, hfailed⟩ : p.halted = false ∧ item.failed = false := by simpa using hrunning
    split at h
    · rename_i heq
      cases h
      exact .inr ⟨hhalted, hfailed, by rw [heq]⟩
    · rename_i heq
      cases h
      exact .inr ⟨hhalted, hfailed, by rw [heq]; rfl⟩
    · cases h

/-- The check of a body declares nothing in the frames of the module. -/
private theorem leaves_body {todo : List Decl} {d : Decl} {s : Store} (options : Options) (hparsed : Parsed decls)
    (h : Resting decls (d :: todo) s) (hd : d.Owns decls) :
    s.Leaves (Phase.bodies.apply options d s).2.store FrameId.builtin := by
  cases d with
  | struct d => exact .refl s _
  | function f =>
    obtain ⟨r, st, hrun⟩ : ∃ r st, (Check.functionWith options FrameId.module f.info f.header f.body
      fun c frame => Check.block c frame f.body).run { store := s } = (r, st) := ⟨_, _, rfl⟩
    have hwalks := h.walks options hparsed hd List.mem_cons_self (show FrameId.builtin < 3 by decide)
    simp only [Phase.apply, Phase.checkBody, check_of_run hrun]
    exact ((Check.walks_iff hrun).mp hwalks).1.moves.leaves

private theorem bodies_leave (hparsed : Parsed decls) (h : Underway options decls items p) :
    ∃ items' q, Phase.bodies.run options items p = .ok (items', q) ∧ Checked options decls items' [] q ∧
      p.store.GrowsTo q.store ∧ p.store.Leaves q.store FrameId.builtin := by
  refine Phase.run_ends (fun done rest q => Checked options decls done rest q ∧ p.store.GrowsTo q.store ∧
    p.store.Leaves q.store FrameId.builtin) (fun done item rest q h => ?_) ⟨⟨h, by simp⟩, .refl _, .refl _ _⟩
  obtain ⟨hchecked, hg, hleaves⟩ := h
  obtain ⟨item', q', hstep, hchecked', hg'⟩ := Checked.step hparsed hchecked
  refine ⟨item', q', hstep, hchecked', hg.trans hg', hleaves.trans ?_⟩
  rcases Phase.step_store hstep with heq | ⟨hhalted, hfailed, heq⟩
  · rw [heq]
    exact .refl _ _
  · rw [heq]
    have howns := hchecked.1.owns hhalted item List.mem_cons_self hfailed
    exact leaves_body options hparsed (hchecked.1.resting hhalted) howns

/-- The frame for others still mirrors that of the module when more is known and both are as they were. -/
private theorem Mirrored.later {tried : List Decl} {m x : Frame} {s s' : Store} (h : Mirrored decls m x s)
    (hregistered : Registered tried m x s) (hg : s.GrowsTo s') : Mirrored decls m x s' :=
  h.congr (fun _ _ => Store.ownType?_keep hregistered.known hg.entries rfl) fun _ _ => rfl

/-- Behind a compilation, the frame for others mirrors that of the module. -/
private theorem compile_mirrors (options : Options) (file : SourceFile) (hparsed : Parsed decls) :
    ∃ module errors m x, Module.compile options { file, decls } = .ok (module, errors) ∧
      module.store.frame? FrameId.module = some m ∧ module.store.frame? FrameId.exported = some x ∧
      Mirrored decls m x module.store ∧ ∀ name, x.has name = true → m.Agrees x name := by
  obtain ⟨items₁, p₁, tried, m, x, hrun₁, -, hregistered, hmirrored⟩ := registration_mirrors options hparsed
  obtain ⟨_, _, hrun₁', -, h₁, -⟩ := registration_ends options hparsed
  cases hrun₁.symm.trans hrun₁'
  obtain ⟨items₂, p₂, hrun₂, -, h₂, hlearns₂⟩ := (studies_structs options decls).run h₁
  obtain ⟨items₃, p₃, hrun₃, -, h₃, hlearns₃⟩ := (studies_signatures options hparsed).run h₂
  obtain ⟨items₄, p₄, hrun₄, -, hg₄, hleaves₄⟩ := bodies_leave hparsed h₃
  have hlearns := hlearns₂.trans hlearns₃
  have hleaves := (hlearns.leaves FrameId.builtin).trans hleaves₄
  exact ⟨_, _, m, x, Module.compile_of_runs hrun₁ hrun₂ hrun₃ hrun₄, hleaves _ _ (by decide) hregistered.frame_module,
    hleaves _ _ (by decide) hregistered.frame_exported, hmirrored.later hregistered (hlearns.toGrowsTo.trans hg₄),
    fun _ => hregistered.agrees hmirrored⟩

end

/-! ### Attempts to register -/

/--
A compilation comes to register a declaration, in a frame and with what is known by then: in the first phase, once more
when a struct is resolved, and when a function inside of another one is checked.
-/
inductive Decl.Attempted (options : Options) (decls : List Decl) : Decl → FrameId → Store → Prop where
  | named {before behind : List Decl} {d : Decl} {done : List Item} {p : Progress}
      (hdecls : before ++ d :: behind = decls)
      (hbefore : Phase.registration.run options (before.map ({ decl := · })) { store := {} } = .ok (done, p))
      (hrunning : p.halted = false) : Attempted options decls d FrameId.module p.store
  | resolved {before behind done : List Item} {d : StructDecl} {p q : Progress}
      (hregistered : Phase.registration.run options (decls.map ({ decl := · })) { store := {} } =
        .ok (before ++ ⟨.struct d, false⟩ :: behind, p))
      (hbefore : Phase.structs.run options before p = .ok (done, q)) (hrunning : q.halted = false) :
      Attempted options decls (.struct d) FrameId.module q.store
  | nested {c : Context} {fr : FrameId} {st : CheckState} {info : Info} {header : Header} {body : Block Expr}
      (hreached : Visit.Reached options decls ⟨c, fr, .expr (.function info header body), st⟩) (hopen : st.stop = none)
      (huntyped : info.type = none) : Attempted options decls (.function ⟨info, header, body⟩) fr st.store

/-- A declaration is registered, or its name is taken in the frame itself, which is not that for others. -/
def Decl.RegistersIn (d : Decl) (fr : FrameId) (s : Store) : Prop :=
  (Phase.register fr d).Ends s (fun _ _ => True) fun why _ =>
    why = ⟨d.span, .duplicateDeclaration d.name⟩ ∧ fr ≠ FrameId.exported ∧
      ∃ f, s.frame? fr = some f ∧ f.has d.name = true

section

variable {options : Options} {decls : List Decl} {d : Decl} {fr : FrameId} {s : Store}

/-- The first phase comes to a declaration. -/
private theorem registersIn_named {before behind : List Decl} {done : List Item} {p : Progress}
    (hparsed : Parsed (before ++ d :: behind))
    (hbefore : Phase.registration.run options (before.map ({ decl := · })) { store := {} } = .ok (done, p))
    (hrunning : p.halted = false) : d.RegistersIn FrameId.module p.store := by
  have hdecls : done.map (·.decl) = before := by
    simpa [Function.comp_def] using Phase.decls_run (by decide) hbefore
  obtain ⟨done', p', hbefore', h⟩ := Phase.run_ends
    (fun done rest => Mirroring (before ++ d :: behind) done (rest ++ (d :: behind).map ({ decl := · })))
    (fun _ _ _ _ => Mirroring.step options hparsed) (by simpa using Mirroring.start (before ++ d :: behind))
  cases hbefore.symm.trans hbefore'
  obtain ⟨tried, after, m, x, htried, hall, hregistered, hmirrored⟩ := h.frames
  obtain rfl := hall hrunning
  rw [List.append_nil, hdecls] at htried
  subst htried
  refine (mirrors hregistered hmirrored fun e he => hparsed.span_ne he).mono (fun _ _ _ => trivial) ?_
  exact fun why _ ⟨hwhy, hhas, _⟩ => ⟨hwhy, by decide, m, hregistered.frame_module, hhas⟩

/-- A struct is resolved, which is registered by then. -/
private theorem registersIn_resolved {before behind done : List Item} {d : StructDecl} {p q : Progress}
    (hparsed : Parsed decls)
    (hregistered : Phase.registration.run options (decls.map ({ decl := · })) { store := {} } =
      .ok (before ++ ⟨.struct d, false⟩ :: behind, p))
    (hbefore : Phase.structs.run options before p = .ok (done, q)) (hrunning : q.halted = false) :
    (Decl.struct d).RegistersIn FrameId.module q.store := by
  obtain ⟨_, _, hregistered', -, hunderway, -⟩ := registration_ends options hparsed
  cases hregistered.symm.trans hregistered'
  obtain ⟨done', q', hbefore', h⟩ := Phase.run_ends
    (fun done rest => Underway options decls (done ++ (rest ++ ⟨.struct d, false⟩ :: behind)))
    (fun done item rest p h => by
      obtain ⟨item', p', hstep, -, h', -⟩ := (studies_structs options decls).step h
      exact ⟨item', p', hstep, h'⟩) hunderway
  cases hbefore.symm.trans hbefore'
  have howns : (Decl.struct d).Owns decls := h.owns hrunning ⟨.struct d, false⟩ (by simp) rfl
  obtain ⟨t, state, hr, -⟩ := (h.resting hrunning).structs d howns
  change (registerStruct FrameId.module d).Ends q.store _ _
  unfold registerStruct
  rw [ends_bind, ends_get, hr]
  exact trivial

/-- A function is registered in the block in which it stands. -/
private theorem registersIn_nested {c : Context} {st : CheckState} {info : Info} {header : Header} {body : Block Expr}
    (hparsed : Parsed decls) (hreached : Visit.Reached options decls ⟨c, fr, .expr (.function info header body), st⟩) :
    (Decl.function ⟨info, header, body⟩).RegistersIn fr st.store := by
  obtain ⟨σ, hr, ⟨b, hfresh⟩, -⟩ := hreached.sound hparsed
  have hexported : header.exported = false := by
    cases hfresh with
    | function hexported => exact hexported
  have hnew : st.store.function header.span = {} := hr.unseen header (List.mem_cons_self)
  obtain ⟨f, -, hf⟩ := Store.get_frame hr.frame
  change (registerFunction fr header).Ends st.store _ _
  unfold registerFunction
  rw [ends_bind, ends_get, hnew, hexported]
  simp only [Option.isSome_none, Bool.false_eq_true, if_false]
  rw [ends_bind, ends_declare hf]
  cases hhas : f.has header.binding.name with
  | true => exact ⟨rfl, (Nat.lt_of_lt_of_le (by decide) hr.inner).ne', f, hf, hhas⟩
  | false => exact trivial

theorem Decl.Attempted.registersIn (hparsed : Parsed decls) (h : d.Attempted options decls fr s) :
    d.RegistersIn fr s := by
  cases h with
  | named hdecls hbefore hrunning =>
    subst hdecls
    exact registersIn_named hparsed hbefore hrunning
  | resolved hregistered hbefore hrunning => exact registersIn_resolved hparsed hregistered hbefore hrunning
  | nested hreached => exact registersIn_nested hparsed hreached

end

/--
Exports mirror the module.  Whatever is asked for and whatever problems there are, behind the compilation of a file that
can be read
* the exported types and variables are those of the exported structs and functions that are registered in the module, in
  the order of the text;
* an exported name means the same for others and in the module;
* and no attempt to register a declaration has failed because of the names for others.
-/
theorem SourceFile.exports_mirror (file : SourceFile) (options : Options) :
    ∃ u, file.compile options = .ok u ∧ ∀ module, u.module = some module →
      ∃ decls m x, file.declarations = .ok decls ∧ (decls.map Site.decl).Pairwise Site.Before ∧
        module.store.frames.get FrameId.module = .ok m ∧ module.store.frames.get FrameId.exported = .ok x ∧
        module.store.frames.exportedTypes = .ok ((decls.filter Decl.exported).filterMap (module.store.ownType? m)) ∧
        module.store.frames.exports = .ok ((decls.filter Decl.exported).filterMap m.ownVariable?) ∧
        (∀ name, x.has name = true → m.Agrees x name) ∧
        ∀ (d : Decl) fr s, d.Attempted options decls fr s → d.RegistersIn fr s := by
  rcases file.declarations_parsed with ⟨decls, hdecls, hparsed⟩ | ⟨d, hrefused⟩
  · obtain ⟨module, errors, m, x, hcompile, hm, hx, hmirrored, hagrees⟩ := compile_mirrors options file hparsed
    refine ⟨_, file.compile_of_module hdecls hcompile, fun _ heq => ?_⟩
    cases heq
    have hget : module.store.frames.get FrameId.exported = .ok x := itemAt_eq_ok_iff.mpr hx
    obtain ⟨_, _, -, -, hordered, -⟩ := nested_of_declarations file decls hdecls
    refine ⟨decls, m, x, hdecls, hordered, itemAt_eq_ok_iff.mpr hm, hget, ?_, ?_, hagrees,
      fun _ _ _ h => h.registersIn hparsed⟩
    · rw [Frames.exportedTypes, hget, ← hmirrored.types]
      rfl
    · rw [Frames.exports, Frames.variablesOf, hget, ok_bind, hmirrored.values]
      simp only [named, List.map_map, Function.comp_def, List.map_id_fun', id]
      rfl
  · exact ⟨_, file.compile_of_refused options hrefused, fun _ heq => by cases heq⟩

/-- The name of the function is taken when the first struct is registered. -/
def takenName : SourceFile := ⟨"taken", "export fn f(){} export struct f{} export struct P{}".toList⟩

/-- Others do not get the struct whose name is taken in the module. -/
theorem SourceFile.exports_mirror_taken : ∃ u module decls m x ts fs, takenName.compile {} = .ok u ∧
    u.module = some module ∧ takenName.declarations = .ok decls ∧
      module.store.frames.get FrameId.module = .ok m ∧ module.store.frames.get FrameId.exported = .ok x ∧
      module.store.frames.exportedTypes = .ok ts ∧ module.store.frames.exports = .ok fs ∧
      ts.map (·.1) = ["P"] ∧ fs.map (·.name) = ["f"] ∧
      ts = (decls.filter Decl.exported).filterMap (module.store.ownType? m) ∧
      fs = (decls.filter Decl.exported).filterMap m.ownVariable? ∧
      ∀ name, x.has name = true → m.Agrees x name := by
  have hrun : (takenName.compile {}).toOption.bind (fun u => u.module.bind fun module =>
      module.store.frames.exportedTypes.toOption.bind fun ts =>
        module.store.frames.exports.toOption.map fun fs => (ts.map (·.1), fs.map (·.name))) =
      some (["P"], ["f"]) := by
    decide +kernel
  obtain ⟨u, hu, hmirrors⟩ := SourceFile.exports_mirror takenName {}
  obtain ⟨module, hm, hrun⟩ :=
    Option.bind_eq_some_iff.mp (by simpa only [hu, Except.toOption, Option.bind_some] using hrun)
  obtain ⟨decls, m, x, hdecls, -, hget, hget', htypes, hvariables, hagrees, -⟩ := hmirrors module hm
  rw [htypes, hvariables] at hrun
  obtain ⟨hts, hfs⟩ := Prod.mk.inj (Option.some.inj hrun)
  exact ⟨u, module, decls, m, x, _, _, hu, hm, hdecls, hget, hget', htypes, hvariables, hts, hfs, rfl, rfl, hagrees⟩

end RainCheck
