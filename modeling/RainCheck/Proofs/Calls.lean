import RainCheck.Proofs.Flawless
import RainCheck.Proofs.Recompilation

/-!
# Calls on declarations

The phases can be applied to the declarations of a module one by one, in any order and any number of times, and so can
whole compilations (`Module.call`).
* A declaration is *settled* if a compilation has found out all there is about it.
* A call on a settled declaration is answered from the records, and nothing changes (`Module.call_settled`).
* If a compilation reports no problem, all declarations are settled (`SourceFile.settled`).
-/

namespace RainCheck

open Check RainCheck.Action

/-! ### Questions and answers -/

/-- Applies a phase to a declaration of the module, and gives the type that it is about. -/
def Phase.ask (phase : Phase) (options : Options) (decl : Decl) (store : Store) : Decl × Outcome (Option TypeId) :=
  match phase, decl with
  | .registration, d => (d, (do Phase.register FrameId.module d; return none).runOn store)
  | .structs, .struct d => (.struct d, (do return some (← resolveStruct FrameId.module d)).runOn store)
  | .signatures, .function f => (.function f, (do return some (← Phase.resolveFunction FrameId.module f)).runOn store)
  | .bodies, .function f =>
    let (f, outcome) := checkBody options FrameId.module f store
    (.function f, ⟨outcome.result.map fun _ => none, outcome.store⟩)
  | _, d => (d, ⟨.ok none, store⟩)

/-- A call on a module: a compilation, or a phase that is applied to one declaration. -/
inductive Call where
  | compile (options : Options)
  | treat (phase : Phase) (options : Options) (index : Nat)

/-- The answer to a call: the type that it is about, if there is one, and the problems that are reported. -/
structure Answer where
  type : Option TypeId := none
  problems : List Diagnostic := []

/-- Answers a call on a module; where there is no declaration, nothing is done. -/
def Module.call (m : Module) : Call → Except Fault (Module × Answer)
  | .compile options => do
    let (m, problems) ← m.compile options
    return (m, { problems })
  | .treat phase options index =>
    match m.decls[index]? with
    | none => return (m, {})
    | some d =>
      match phase.ask options d m.store with
      | (d, ⟨.ok type, store⟩) => return ({ m with decls := m.decls.set index d, store }, { type })
      | (d, ⟨.error (.refused why), store⟩) =>
        return ({ m with decls := m.decls.set index d, store }, { problems := [why] })
      | (_, ⟨.error (.fault f), _⟩) => throw f

/-- Answers calls on a module, one after the other. -/
def Module.calls (m : Module) : List Call → Except Fault (Module × List Answer)
  | [] => return (m, [])
  | call :: rest => do
    let (m, answer) ← m.call call
    let (m, answers) ← m.calls rest
    return (m, answer :: answers)

/-- The type that a phase is about, as it is on record. -/
def Phase.onRecord (phase : Phase) (s : Store) : Decl → Option TypeId
  | .struct d => if phase = .structs then (s.structs.find? d.span).map (·.type) else none
  | .function f => if phase = .signatures then (s.function f.header.span).signature else none

/-- The answer to a call, as it is on record. -/
def Module.onRecord (m : Module) : Call → Answer
  | .compile _ => {}
  | .treat phase _ index => { type := m.decls[index]?.bind (phase.onRecord m.store) }

variable {options : Options} {decls : List Decl} {phase : Phase} {d : Decl} {s s' : Store} {m m' : Module}

theorem runOn_eq {α : Type} (a : Action α) (s : Store) : a.runOn s = ⟨(a.run.run s).1, (a.run.run s).2⟩ :=
  rfl

theorem run_map {α β : Type} {a : Action α} {f : α → β} (s : Store) :
    (do return f (← a) : Action β).runOn s = ⟨(a.runOn s).result.map f, (a.runOn s).store⟩ := by
  rw [runOn_eq, runOn_eq, run_bind]
  rcases a.run.run s with ⟨e | x, s'⟩ <;> rfl

/-- A phase asks for a type, and forgets the answer. -/
private theorem Phase.apply_eq_ask (phase : Phase) (options : Options) (d : Decl) (s : Store) :
    phase.apply options d s =
      ((phase.ask options d s).1,
        ⟨(phase.ask options d s).2.result.map fun _ => (), (phase.ask options d s).2.store⟩) := by
  have hforget :
      ∀ {α : Type} (r : Except Stop α) (f : α → Option TypeId), (r.map f).map (fun _ => ()) = r.map fun _ => () := by
    intro α r f
    cases r <;> rfl
  have hsame : ∀ (r : Except Stop Unit), (r.map fun _ => ()) = r := by
    intro r
    cases r <;> rfl
  have hdiscard :
      ∀ {α : Type} (a : Action α), (discard a).runOn s = ⟨(a.runOn s).result.map fun _ => (), (a.runOn s).store⟩ := by
    intro α a
    rw [discard_eq]
    exact run_map s
  cases phase with
  | registration => simp only [Phase.apply, Phase.ask, run_map, hforget, hsame]
  | structs =>
    cases d with
    | struct d => simp only [Phase.apply, Phase.ask, run_map, hforget, hdiscard]
    | function f => rfl
  | signatures =>
    cases d with
    | struct d => rfl
    | function f => simp only [Phase.apply, Phase.ask, run_map, hforget, hdiscard]
  | bodies =>
    cases d with
    | struct d => rfl
    | function f => simp only [Phase.apply, Phase.ask, hforget, hsame]

/-! ### Settled declarations -/

/-- All that a compilation finds out about a declaration is known. -/
inductive Decl.Settled (s : Store) : Decl → Prop where
  | struct {d : StructDecl} (hdecided : s.Decided false d) : Settled s (.struct d)
  | function {f : FunctionDecl} (hregistered : (s.function f.header.span).variableType.isSome = true)
      (hsignature : (s.function f.header.span).signature.isSome = true) (hchecked : f.info.type.isSome = true) :
      Settled s (.function f)

/-- A struct whose fields are resolved needs nothing. -/
private theorem run_complete_resolved {use : Span} {t : TypeId} {decl : StructDecl} {fields : List (String × TypeId)}
    (he : s.typeAt? t = some (.struct decl (.resolved fields))) : (complete use t).run.run s = (.ok t, s) := by
  unfold complete depthBound
  rw [run_bind]
  change (completeWithin (2 * s.types.size + 1 + 1) use t).run.run s = _
  unfold completeWithin fromTypes
  rw [run_bind, run_bind, show (get : Action Store).run.run s = (.ok s, s) from rfl]
  dsimp only
  rw [Store.get_of_entry he]
  rfl

/-- What is asked of a settled declaration is answered from the records, and nothing changes. -/
private theorem Decl.Settled.ask (h : d.Settled s) (phase : Phase) (options : Options) :
    phase.ask options d s = (d, ⟨.ok (phase.onRecord s d), s⟩) := by
  cases h with
  | @struct d hdecided =>
    obtain ⟨t, state, hr, he, fields, rfl⟩ := hdecided
    cases phase with
    | registration =>
      have hrun : (Phase.register FrameId.module (.struct d)).runOn s = ⟨.ok (), s⟩ := by
        have hnoted : (Decl.struct d).Noted s := by rw [Decl.Noted, hr]; rfl
        have := run_register_noted hnoted (.refl _)
        unfold Action.runOn
        rw [show (Phase.register FrameId.module (.struct d)).run s = _ from this]
      simp only [Phase.ask, run_map, hrun, Phase.onRecord, Except.map]
      rfl
    | structs =>
      have hrun : (resolveStruct FrameId.module d).runOn s = ⟨.ok t, s⟩ := by
        have := (run_resolveStruct hr).trans (run_complete_resolved he)
        unfold Action.runOn
        rw [show (resolveStruct FrameId.module d).run s = _ from this]
      simp only [Phase.ask, run_map, hrun, Phase.onRecord, Except.map, hr]
      rfl
    | signatures => rfl
    | bodies => rfl
  | @function f hregistered hsignature hchecked =>
    -- a function is answered from its record, whatever the phase asks for
    obtain ⟨sig, hsig⟩ := Option.isSome_iff_exists.mp hsignature
    cases phase with
    | registration =>
      have hrun : (Phase.register FrameId.module (.function f)).runOn s = ⟨.ok (), s⟩ := by
        have hnoted : (Decl.function f).Noted s := hregistered
        have := run_register_noted hnoted (.refl _)
        unfold Action.runOn
        rw [show (Phase.register FrameId.module (.function f)).run s = _ from this]
      simp only [Phase.ask, run_map, hrun, Phase.onRecord, Except.map]
      rfl
    | structs => rfl
    | signatures =>
      have hrun : (Phase.resolveFunction FrameId.module f).runOn s = ⟨.ok sig, s⟩ := by
        unfold Action.runOn
        rw [show (Phase.resolveFunction FrameId.module f).run s = _ from run_resolveSignature hsig]
      simp only [Phase.ask, run_map, hrun, Phase.onRecord, Except.map, hsig]
      rfl
    | bodies =>
      simp only [Phase.ask, Phase.checkBody, check_checked options hchecked, Phase.onRecord, Except.map]
      rfl

/-- A phase leaves settled declarations and the store alone. -/
private theorem Phase.run_settled (phase : Phase) (options : Options) {items : List Item} {p : Progress}
    (h : ∀ i ∈ items, i.decl.Settled p.store) : phase.run options items p = .ok (items, p) := by
  induction items with
  | nil => rfl
  | cons item rest ih =>
    have happly : phase.apply options item.decl p.store = (item.decl, ⟨.ok (), p.store⟩) := by
      rw [Phase.apply_eq_ask, (h item List.mem_cons_self).ask]
      rfl
    have hstep : phase.step options item p = .ok (item, p) := by
      unfold Phase.step
      split
      · rfl
      · rw [happly]
    rw [Phase.run_cons, hstep, ok_bind]
    dsimp only
    rw [ih fun i hi => h i (List.mem_cons_of_mem _ hi)]
    rfl

/-- A module of settled declarations is compiled again without problems, and nothing changes. -/
private theorem Module.compile_settled (options : Options) (h : ∀ d ∈ m.decls, d.Settled m.store) :
    m.compile options = .ok (m, []) := by
  have hrun : ∀ phase : Phase, phase.run options (m.decls.map ({ decl := · })) { store := m.store } =
      .ok (m.decls.map ({ decl := · }), { store := m.store }) := fun phase =>
    phase.run_settled options fun i hi => by
      obtain ⟨d, hd, rfl⟩ := List.mem_map.mp hi
      exact h d hd
  rw [Module.compile_of_runs (hrun _) (hrun _) (hrun _) (hrun _)]
  simp [Function.comp_def]

/-- A call on a module of settled declarations. -/
theorem Module.call_settled (h : ∀ d ∈ m.decls, d.Settled m.store) (c : Call) :
    m.call c = .ok (m, m.onRecord c) := by
  cases c with
  | compile options =>
    rw [Module.call, m.compile_settled options h]
    rfl
  | treat phase options index =>
    rw [Module.call, Module.onRecord]
    cases hget : m.decls[index]? with
    | none => rfl
    | some d =>
      obtain ⟨hlt, rfl⟩ := List.getElem?_eq_some_iff.mp hget
      dsimp only
      rw [(h _ (List.getElem_mem hlt)).ask]
      dsimp only
      rw [List.set_getElem_self]
      rfl

private theorem Module.calls_settled (h : ∀ d ∈ m.decls, d.Settled m.store) (calls : List Call) :
    m.calls calls = .ok (m, calls.map m.onRecord) := by
  induction calls with
  | nil => rfl
  | cons c rest ih =>
    rw [Module.calls, m.call_settled h, ok_bind]
    dsimp only
    rw [ih]
    rfl

/-! ### Modules without problems -/

private theorem forall₂_becomes_trans {ds es fs : List Decl} (h : List.Forall₂ Decl.Becomes ds es)
    (h' : List.Forall₂ Decl.Becomes es fs) : List.Forall₂ Decl.Becomes ds fs := by
  induction h generalizing fs with
  | nil => exact h'
  | cons h _ ih =>
    cases h' with
    | cons h' hrest => exact .cons (h.trans h') (ih hrest)

/-- A compilation changes nothing about what the declarations declare. -/
private theorem Phase.becomes_runAll {phases : List Phase} {items items' : List Item} {p p' : Progress}
    (h : Phase.runAll options phases items p = .ok (items', p')) :
    List.Forall₂ Decl.Becomes (items.map (·.decl)) (items'.map (·.decl)) := by
  induction phases generalizing items p with
  | nil =>
    cases h
    exact forall₂_becomes_refl _
  | cons phase phases ih =>
    rw [Phase.runAll] at h
    cases hrun : phase.run options items p with
    | error f =>
      rw [hrun] at h
      cases h
    | ok r =>
      rw [hrun, ok_bind] at h
      exact forall₂_becomes_trans (Phase.becomes_run hrun) (ih h)

private theorem Module.becomes_compile {errors : List Diagnostic} (h : m.compile options = .ok (m', errors)) :
    List.Forall₂ Decl.Becomes m.decls m'.decls := by
  unfold Module.compile at h
  cases hrun : Phase.runAll options Phase.all (m.decls.map ({ decl := · })) { store := m.store } with
  | error f =>
    rw [hrun] at h
    cases h
  | ok r =>
    rw [hrun] at h
    cases h
    simpa [Function.comp_def] using Phase.becomes_runAll hrun

/-- If no problem is reported, all declarations of the module are settled. -/
theorem SourceFile.settled {file : SourceFile} {u : CompiledUnit} (hcompile : file.compile options = .ok u)
    (herrors : u.errors = []) (hm : u.module = some m) : ∀ d ∈ m.decls, d.Settled m.store := by
  obtain ⟨m', decls, hm', hdecls, -, -, hdecided, hnoted, hsignatures⟩ := SourceFile.flawless hcompile herrors
  cases hm.symm.trans hm'
  obtain ⟨m', hm', hannotated⟩ := annotated_of_no_errors file options u hcompile herrors
  cases hm.symm.trans hm'
  have hbecomes : List.Forall₂ Decl.Becomes decls m.decls := by
    simp only [SourceFile.compile, hdecls] at hcompile
    cases hrun : Module.compile options { file, decls } with
    | error f =>
      rw [hrun] at hcompile
      cases hcompile
    | ok r =>
      rw [hrun] at hcompile
      cases hcompile
      cases hm
      exact Module.becomes_compile hrun
  -- what a declaration became stands at the place where it stood
  intro d hd
  obtain ⟨i, hlt, rfl⟩ := List.getElem_of_mem hd
  have hlt' : i < decls.length := hbecomes.length_eq ▸ hlt
  have he := List.getElem_mem hlt'
  have hi := List.Forall₂.get hbecomes hlt' hlt
  simp only [List.get_eq_getElem] at hi
  generalize decls[i] = e at he hi
  generalize m.decls[i] = d at hd hi
  cases hi with
  | struct d => exact .struct (hdecided d he)
  | @function f g hbinding =>
    have hspan : g.header.span = f.header.span := congrArg Variable.span hbinding
    obtain ⟨sig, params, returns, inner, -, -, -, -, htyped⟩ := hannotated g hd
    exact .function (hspan ▸ hnoted _ he) (hspan ▸ hsignatures f he) (by rw [htyped.type]; rfl)

/--
Checking is idempotent once it has succeeded: on a module without problems, compilations may be called again with any
options, and declarations may be treated again in any order.  No problem is reported, the answers are the types that are
on record, and neither the declarations nor the store change.
-/
theorem Module.calls_of_no_errors (file : SourceFile) (options : Options) (u : CompiledUnit) (m : Module)
    (hcompile : file.compile options = .ok u) (herrors : u.errors = []) (hm : u.module = some m) (calls : List Call) :
    m.calls calls = .ok (m, calls.map m.onRecord) ∧ ∀ c ∈ calls, (m.onRecord c).problems = [] := by
  refine ⟨m.calls_settled (file.settled hcompile herrors hm) calls, fun c _ => ?_⟩
  cases c <;> rfl

/-- A struct and a function that takes a reference to it: nothing is found out that was not known. -/
theorem Module.calls_of_no_errors_reader : ∃ u m,
    SourceFile.compile {} ⟨"reader", "struct P{x:i32} fn f(p:&P)->i32{let y=p.x;y}".toList⟩ = .ok u ∧
      u.errors = [] ∧ u.module = some m ∧ m.decls.length = 2 ∧
      m.calls [.treat .signatures {} 1, .treat .bodies {} 1,
        .compile { constantFolding := false }, .treat .structs {} 0] =
        .ok (m, [.treat .signatures {} 1, .treat .bodies {} 1, .compile { constantFolding := false },
          .treat .structs {} 0].map m.onRecord) := by
  have hrun : (SourceFile.compile {}
      ⟨"reader", "struct P{x:i32} fn f(p:&P)->i32{let y=p.x;y}".toList⟩).toOption.map
        (fun u => (u.errors, u.module.map (·.decls.length))) = some ([], some 2) := by
    decide +kernel
  obtain ⟨u, hu, hfound⟩ := Option.map_eq_some_iff.mp hrun
  obtain ⟨herrors, hlength⟩ := Prod.mk.inj hfound
  obtain ⟨m, hm, hlength⟩ := Option.map_eq_some_iff.mp hlength
  have hcompile := eq_ok_of_toOption hu
  exact ⟨u, m, hcompile, herrors, hm, hlength, (Module.calls_of_no_errors _ _ u m hcompile herrors hm _).1⟩

end RainCheck
