import RainCheck.Proofs.CoheringExpr

/-!
# Histories of a module

The declarations of a module can be treated one by one, in any frames, in any order and any number of times
(`Module.serve`).  Whatever is asked for, as long as no fault is raised:
* between two requests no struct is being resolved;
* a struct goes through its states and does not leave the last one;
* a resolved struct has the declared fields, and structs that are met in them by value are resolved and rank below it.
-/

namespace RainCheck

open Relation (ReflTransGen)

/-! ### Requests -/

/-- A request to a module; declarations are named by their positions, frames by their numbers. -/
inductive Module.Request where
  | register (frame : FrameId) (index : Nat)
  | resolveStruct (frame : FrameId) (index : Nat)
  | resolveSignature (frame : FrameId) (index : Nat)
  | validate (options : Options) (frame : FrameId) (index : Nat)
  | resolveType (frame : FrameId) (type : TypeExpr)
  | nest (frame : FrameId)

/-- The module after an action on its store, which may be refused. -/
def Module.act {α : Type} (m : Module) (a : Action α) : Except Fault Module :=
  match a.runOn m.store with
  | ⟨.error (.fault f), _⟩ => .error f
  | ⟨_, store⟩ => .ok { m with store }

/-- The module after a request; where there is no such declaration, nothing is done. -/
def Module.serve (m : Module) : Module.Request → Except Fault Module
  | .register frame index =>
    match m.decls[index]? with
    | some d => m.act (Phase.register frame d)
    | none => .ok m
  | .resolveStruct frame index =>
    match m.decls[index]? with
    | some (.struct d) => m.act (Action.resolveStruct frame d)
    | _ => .ok m
  | .resolveSignature frame index =>
    match m.decls[index]? with
    | some (.function f) => m.act (Phase.resolveFunction frame f)
    | _ => .ok m
  | .validate options frame index =>
    match m.decls[index]? with
    | some (.function f) =>
      match Phase.checkBody options frame f m.store with
      | (_, ⟨.error (.fault g), _⟩) => .error g
      | (f, ⟨_, store⟩) => .ok { m with decls := m.decls.set index (.function f), store }
    | _ => .ok m
  | .resolveType frame type => m.act (Action.resolveType frame type)
  | .nest frame => m.act (Action.nest frame)

/-- The module after requests, one after the other. -/
def Module.serveAll (m : Module) (requests : List Module.Request) : Except Fault Module :=
  requests.foldlM Module.serve m

/-! ### What requests keep -/

/-- The store is coherent and no struct is being resolved; trees carry types in use. -/
structure Module.Coherent (decls : List Decl) (m : Module) : Prop where
  store : m.store.Coherent decls
  idle : m.store.types.resolving.items = []
  structs : ∀ d, .struct d ∈ m.decls → .struct d ∈ decls
  trees : ∀ f, .function f ∈ m.decls → ∀ t ∈ Expr.typesIn (Expr.function f.info f.header f.body).nodes, m.store.Live t

namespace Module

variable {decls : List Decl} {m m' : Module} {s' : Store}

private theorem Coherent.advance (h : m.Coherent decls) (hadvances : m.store.AdvancesTo s') (hs' : s'.Coherent decls) :
    ({ m with store := s' } : Module).Coherent decls where
  store := hs'
  idle := (congrArg Stack.items hadvances.resolving).trans h.idle
  structs := h.structs
  trees f hf t ht := (h.trees f hf t ht).moves hadvances.toMovesTo

private theorem Coherent.act {α : Type} {a : Action α} {P : α → Store → Prop} (h : m.Coherent decls)
    (ha : Action.Coheres decls m.store a P) (hm' : m.act a = .ok m') :
    m'.Coherent decls ∧ m.store.AdvancesTo m'.store := by
  have hend := ha m.store rfl
  unfold Module.act Action.runOn at hm'
  rcases hrun : a.run.run m.store with ⟨(d | g) | x, s'⟩ <;>
    rw [hrun] at hend <;> rw [show a.run m.store = _ from hrun] at hm' <;> cases hm'
  · exact ⟨h.advance hend.1 hend.2, hend.1⟩
  · exact ⟨h.advance hend.1 hend.2.1, hend.1⟩

private theorem Coherent.validate {options : Options} {fr : FrameId} {index : Nat} (h : m.Coherent decls)
    (hm' : m.serve (.validate options fr index) = .ok m') : m'.Coherent decls ∧ m.store.AdvancesTo m'.store := by
  unfold Module.serve at hm'
  dsimp only at hm'
  split at hm'
  · rename_i f hf
    obtain ⟨⟨info, header, body⟩, st, hrun⟩ : ∃ r st, (Check.functionWith options fr f.info f.header f.body
      fun c frame => Check.block c frame f.body).run { store := m.store } = (r, st) := ⟨_, _, rfl⟩
    have hgains : Check.Gains decls _ _ (Check.functionWith options fr f.info f.header f.body
        fun c frame => Check.block c frame f.body) :=
      Check.gains_functionWith (List.Subset.refl _) fun _ c fr hT => Check.gains_blockOf f.body hT c fr
    have hend := hgains m.store _ { store := m.store } (List.Subset.refl _)
      ⟨.refl m.store, h.store, h.trees f (List.mem_of_getElem? hf)⟩
    rw [hrun] at hend
    have hvalid : st.store.Coherent decls → m.store.AdvancesTo st.store →
        (∀ t ∈ Expr.typesIn (Expr.function info header body).nodes, st.store.Live t) →
        Module.Coherent decls
            { m with decls := m.decls.set index (.function ⟨info, header, body⟩), store := st.store } := by
      intro hs hadvances hlive
      have hunchanged := h.advance hadvances hs
      refine ⟨hs, hunchanged.idle, fun d hd => ?_, fun g hg => ?_⟩
      · rcases List.mem_or_eq_of_mem_set hd with hd | hd
        · exact h.structs d hd
        · cases hd
      · rcases List.mem_or_eq_of_mem_set hg with hg | hg
        · exact hunchanged.trees g hg
        · cases hg
          exact hlive
    obtain ⟨store, loops, stop⟩ := st
    rw [Phase.checkBody, check_of_run hrun] at hm'
    rcases stop with _ | d | g <;> cases hm'
    · exact ⟨hvalid hend.2.1 hend.1 fun t ht => hend.2.2 t (List.mem_append_left _ ht), hend.1⟩
    · exact ⟨hvalid hend.2.1 hend.1 fun t ht => hend.2.2 t (List.mem_append_left _ ht), hend.1⟩
  · cases hm'
    exact ⟨h, .refl m.store⟩

/-- Every request leaves a module coherent, and structs go on at most. -/
private theorem Coherent.serve {r : Module.Request} (h : m.Coherent decls) (hm' : m.serve r = .ok m') :
    m'.Coherent decls ∧ m.store.AdvancesTo m'.store := by
  have hsame : ∀ {m' : Module}, (Except.ok m : Except Fault Module) = .ok m' →
      m'.Coherent decls ∧ m.store.AdvancesTo m'.store := by
    intro m' heq
    cases heq
    exact ⟨h, .refl _⟩
  cases r with
  | register fr index =>
    rw [Module.serve] at hm'
    cases hd : m.decls[index]? with
    | none =>
      rw [hd] at hm'
      exact hsame hm'
    | some d =>
      rw [hd] at hm'
      cases d with
      | struct d => exact h.act (Action.coheres_registerStruct h.store (h.structs d (List.mem_of_getElem? hd))) hm'
      | function f => exact h.act (Action.coheres_registerFunction h.store) hm'
  | resolveStruct fr index =>
    rw [Module.serve] at hm'
    split at hm'
    · rename_i d hd
      exact h.act (Action.coheres_resolveStruct h.store (h.structs d (List.mem_of_getElem? hd))) hm'
    · exact hsame hm'
  | resolveSignature fr index =>
    rw [Module.serve] at hm'
    split at hm'
    · exact h.act (Action.coheres_signature h.store) hm'
    · exact hsame hm'
  | validate options fr index => exact h.validate hm'
  | resolveType fr t => exact h.act (Action.coheres_resolveType h.store) hm'
  | nest fr => exact h.act (Action.coheres_nest h.store) hm'

private theorem Coherent.serveAll {requests : List Module.Request} (h : m.Coherent decls)
    (hm' : m.serveAll requests = .ok m') :
    m'.Coherent decls ∧ m.store.AdvancesTo m'.store := by
  induction requests generalizing m with
  | nil =>
    cases hm'
    exact ⟨h, .refl _⟩
  | cons r rest ih =>
    unfold Module.serveAll at hm'
    rw [List.foldlM_cons] at hm'
    cases hserve : m.serve r with
    | error g =>
      rw [hserve] at hm'
      cases hm'
    | ok m₁ =>
      rw [hserve] at hm'
      obtain ⟨h₁, hadvances⟩ := h.serve hserve
      obtain ⟨h', hadvances'⟩ := ih h₁ hm'
      exact ⟨h', hadvances.trans hadvances'⟩

end Module

/-! ### The beginning -/

private theorem Store.live_builtin {p : String × TypeId} (hp : p ∈ Frames.builtinTypes) : ({} : Store).Live p.2 := by
  simp only [Frames.builtinTypes, List.mem_cons, List.not_mem_nil, or_false] at hp
  rcases hp with rfl | rfl | rfl | rfl | rfl | rfl <;> exact (finished_of_entry (e := .primitive _) rfl rfl).1

/-- At first there are primitive types only. -/
private theorem Store.typesCoherent_initial (decls : List Decl) : ({} : Store).TypesCoherent decls where
  primitives t name ht := by
    change (Types.primitives.map TypeEntry.primitive)[t]? = _
    rw [List.getElem?_map, ht]
    rfl
  references t inner ht := by
    obtain ⟨_, heq⟩ := primitive_initial ht
    cases heq
  contents t e he u hu := by
    obtain ⟨_, rfl⟩ := primitive_initial he
    cases hu
  ranked := ⟨fun _ => 0, fun t e he u hu => by
    obtain ⟨_, rfl⟩ := primitive_initial he
    cases hu⟩
  declared t decl state ht := by
    obtain ⟨_, heq⟩ := primitive_initial ht
    cases heq
  resolved t decl fields ht := by
    obtain ⟨_, heq⟩ := primitive_initial ht
    cases heq
  resolving t := by
    refine ⟨fun ht => ?_, ?_⟩
    · cases ht
    · rintro ⟨decl, ht⟩
      obtain ⟨_, heq⟩ := primitive_initial ht
      cases heq
  records _ _ h := by cases h

private theorem Store.coherent_initial (decls : List Decl) : ({} : Store).Coherent decls where
  types := Store.typesCoherent_initial decls
  names :=
    { types := fun f hf p hp => Store.live_builtin (types_initial hf hp)
      values := fun f hf p hp => by
        have hf : f ∈ Frames.initial.frames := hf
        simp only [Frames.initial, List.mem_cons, List.not_mem_nil, or_false] at hf
        rcases hf with rfl | rfl | rfl <;> cases hp
      signature := fun _ _ h => by cases h
      variableType := fun _ _ h => by cases h }

/-- A module that was read, and of which nothing is known yet. -/
private theorem Parsed.coherent {file : SourceFile} {decls : List Decl} (h : Parsed decls) :
    Module.Coherent decls { file, decls } where
  store := Store.coherent_initial decls
  idle := rfl
  structs _ hd := hd
  trees f hf t ht := by
    rw [Expr.nodes, Expr.typesIn_cons, Expr.info, h.untyped f hf] at ht
    obtain ⟨n, hn, hnt⟩ := List.mem_filterMap.mp ht
    obtain ⟨⟨b, hfresh⟩, -⟩ := (h.body f hf).node n (by rwa [Expr.nodes])
    rw [show n.type? = none from hfresh.untyped] at hnt
    cases hnt

/-! ### The life cycle of structs -/

/-- What is met in a type by value: the type itself, and what functions take and return. -/
def Store.ByValue (s : Store) : TypeId → TypeId → Prop :=
  ReflTransGen fun t u => ∃ params returns, s.typeAt? t = some (.function params returns) ∧ u ∈ returns :: params

/-- What holds of structs between two requests. -/
structure Store.StructsOrderly (decls : List Decl) (s : Store) : Prop where
  idle : s.types.resolving.items = []
  notResolving : ∀ t decl, s.typeAt? t ≠ some (.struct decl .resolving)
  declared : ∀ t decl state, s.typeAt? t = some (.struct decl state) → .struct decl ∈ decls
  names : ∀ t decl fields, s.typeAt? t = some (.struct decl (.resolved fields)) →
    fields.map (·.1) = decl.fields.map (·.name) ∧ (fields.map (·.1)).Nodup
  positions : ∀ t decl fields, s.typeAt? t = some (.struct decl (.resolved fields)) →
    ∀ name i, fields.findIdx? (·.1 = name) = some i ↔ (decl.fields.map (·.name))[i]? = some name
  listed : ∀ t decl fields, s.typeAt? t = some (.struct decl (.resolved fields)) → ∀ f ∈ fields, f.2 < s.types.size
  ranked : ∃ rank : TypeId → Nat, ∀ t decl fields, s.typeAt? t = some (.struct decl (.resolved fields)) →
    ∀ f ∈ fields, ∀ u d state, s.ByValue f.2 u → s.typeAt? u = some (.struct d state) →
      (∃ fields', state = .resolved fields') ∧ rank u < rank t

section

variable {s : Store} {decls : List Decl}

/-- The position of a name among distinct names. -/
private theorem findIdx?_eq_some_iff_of_nodup {fields : List (String × TypeId)}
    (h : (fields.map (·.1)).Nodup) {name : String}
    {i : Nat} : fields.findIdx? (·.1 = name) = some i ↔ (fields.map (·.1))[i]? = some name := by
  rw [List.findIdx?_eq_some_iff_getElem]
  constructor
  · rintro ⟨hi, hname, -⟩
    simpa [hi] using hname
  · intro hname
    obtain ⟨hi, hname⟩ := List.getElem?_eq_some_iff.mp hname
    have hi' : i < fields.length := by simpa using hi
    refine ⟨hi', by simpa using hname, fun j hj => ?_⟩
    have hearlier : j < (fields.map (·.1)).length := Nat.lt_trans hj hi
    have hne : (fields.map (·.1))[j] ≠ name := fun heq =>
      Nat.ne_of_lt hj ((List.Nodup.getElem_inj_iff h).mp (heq.trans hname.symm))
    simpa using hne

/-- What is met in a finished type is finished, and ranks no higher. -/
private theorem Store.TypesCoherent.within (h : s.TypesCoherent decls) {rank : TypeId → Nat}
    (hrank : ∀ t e, s.typeAt? t = some e → ∀ u ∈ e.contents, rank u < rank t) {t u : TypeId} (ht : s.Finished t)
    (hwithin : s.ByValue t u) : s.Finished u ∧ rank u ≤ rank t := by
  induction hwithin with
  | refl => exact ⟨ht, Nat.le_refl _⟩
  | tail _ hstep ih =>
    obtain ⟨params, returns, he, hmem⟩ := hstep
    exact ⟨h.contents _ _ he _ hmem, Nat.le_trans (Nat.le_of_lt (hrank _ _ he _ hmem)) ih.2⟩

private theorem Module.Coherent.structsOrderly {m : Module} (h : m.Coherent decls) : m.store.StructsOrderly decls := by
  have hcontents : ∀ {t decl fields}, m.store.typeAt? t = some (.struct decl (.resolved fields)) →
      ∀ f ∈ fields, m.store.Finished f.2 := fun ht f hf =>
    h.store.types.contents _ _ ht _ (List.mem_map_of_mem hf)
  refine ⟨h.idle, fun t decl ht => ?_, h.store.types.declared, h.store.types.resolved,
    fun t decl fields ht name i => ?_,
    fun t decl fields ht f hf => (hcontents ht f hf).1.lt_size, ?_⟩
  · have hmem := (h.store.types.resolving t).mpr ⟨decl, ht⟩
    rw [h.idle] at hmem
    cases hmem
  · obtain ⟨hnames, hnodup⟩ := h.store.types.resolved t decl fields ht
    rw [findIdx?_eq_some_iff_of_nodup hnodup, hnames]
  · obtain ⟨rank, hrank⟩ := h.store.types.ranked
    refine ⟨rank, fun t decl fields ht f hf u d state hwithin hu => ?_⟩
    obtain ⟨hfinished, hle⟩ := h.store.types.within hrank (hcontents ht f hf) hwithin
    exact ⟨hfinished.2 d state hu, Nat.lt_of_le_of_lt hle (hrank t _ ht _ (List.mem_map_of_mem hf))⟩

end

/--
The life cycle of structs: whatever is asked of the declarations of a module, as long as no fault is
raised, no struct is being resolved between two requests; resolved structs have the declared fields
and do not contain themselves by value; and a struct goes from `unresolved` by `resolving` to
`resolved` or `failed`, where it stays.
-/
theorem struct_life_cycle (file : SourceFile) (decls : List Decl) (hdecls : file.declarations = .ok decls)
    (earlier later : List Module.Request) (m m' : Module) (hm : Module.serveAll { file, decls } earlier = .ok m)
    (hm' : m.serveAll later = .ok m') :
    m.store.StructsOrderly decls ∧
      ∀ t decl state, m.store.typeAt? t = some (.struct decl state) →
        ∃ state', m'.store.typeAt? t = some (.struct decl state') ∧ ReflTransGen StructState.Next state state' ∧
          (((∃ fields, state = .resolved fields) ∨ ∃ why, state = .failed why) → state' = state) := by
  obtain ⟨h, -⟩ := (file.parsed_of_declarations hdecls).coherent.serveAll hm
  refine ⟨h.structsOrderly, fun t decl state ht => ?_⟩
  obtain ⟨-, hadvances⟩ := h.serveAll hm'
  obtain ⟨e, he, hmoves⟩ := hadvances.entries t _ ht
  have hstays := hmoves.stays
  cases hmoves with
  | refl => exact ⟨state, he, .refl, fun _ => rfl⟩
  | @struct _ _ state' hnext =>
    exact ⟨state', he, hnext, fun hfinal => (TypeEntry.struct.inj (hstays hfinal)).2⟩

/-- The names of the declarations of a file that two runs of requests, one after the other, are answered for. -/
def SourceFile.served? (file : SourceFile) (earlier later : List Module.Request) : Option (List String) := do
  let decls ← file.declarations.toOption
  let m ← (Module.serveAll { file, decls } earlier).toOption
  let _ ← (m.serveAll later).toOption
  return decls.map Decl.name

private theorem SourceFile.served?_spec {file : SourceFile} {earlier later : List Module.Request} {names : List String}
    (h : file.served? earlier later = some names) :
    ∃ decls m m', file.declarations = .ok decls ∧ decls.map Decl.name = names ∧
      Module.serveAll { file, decls } earlier = .ok m ∧ m.serveAll later = .ok m' := by
  obtain ⟨decls, hdecls, h⟩ := Option.bind_eq_some_iff.mp h
  obtain ⟨m, hm, h⟩ := Option.bind_eq_some_iff.mp h
  obtain ⟨m', hm', h⟩ := Option.bind_eq_some_iff.mp h
  exact ⟨decls, m, m', eq_ok_of_toOption hdecls, Option.some.inj h, eq_ok_of_toOption hm, eq_ok_of_toOption hm'⟩

/--
The body of a function is checked before the structs of its parameter have been asked for, which are resolved on demand;
then a struct that contains itself is resolved.
-/
theorem struct_life_cycle_on_demand : ∃ file decls m m', SourceFile.declarations file = .ok decls ∧
    decls.map Decl.name = ["A", "B", "C", "f"] ∧
    Module.serveAll { file, decls } [.register 1 2, .register 1 0, .register 1 1, .validate {} 1 3] = .ok m ∧
    m.serveAll [.resolveStruct 1 2, .nest 1] = .ok m' ∧ m.store.StructsOrderly decls ∧
      ∀ t decl state, m.store.typeAt? t = some (.struct decl state) →
        ∃ state', m'.store.typeAt? t = some (.struct decl state') ∧ ReflTransGen StructState.Next state state' ∧
          (((∃ fields, state = .resolved fields) ∨ ∃ why, state = .failed why) → state' = state) := by
  have hrun : SourceFile.served?
      ⟨"demand", ("struct A{b:B,g:fn(B)} struct B{a:&A} struct C{c:C} " ++
        "fn f(a:A)->i32{let b=a.b;0}").toList⟩
      [.register 1 2, .register 1 0, .register 1 1, .validate {} 1 3] [.resolveStruct 1 2, .nest 1] =
        some ["A", "B", "C", "f"] := by
    decide +kernel
  obtain ⟨decls, m, m', hdecls, hnames, hm, hm'⟩ := SourceFile.served?_spec hrun
  exact ⟨_, decls, m, m', hdecls, hnames, hm, hm', struct_life_cycle _ decls hdecls _ _ m m' hm hm'⟩

end RainCheck
