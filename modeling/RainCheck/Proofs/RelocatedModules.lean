import RainCheck.Proofs.WalksInStep
import RainCheck.Proofs.Relocation
import RainCheck.Proofs.Compilation

/-!
# Modules that differ by spans

Two modules that differ by spans are compiled in step: each phase does the same to both, with problems that are about
the same.  So a module that stands somewhere else is compiled to the same module there (`Module.compile_matches`).
-/

namespace RainCheck

open RainCheck.Action

private theorem Matching.Rigid.eq_of_le {m n : Matching} (hm : m.Rigid) (hn : n.Rigid) (hle : m ≤ n) : n = m := by
  obtain ⟨hspan, -, -, hproblem⟩ := hle
  have htype := hn.type.trans hm.type.symm
  have hframe := hn.frame.trans hm.frame.symm
  obtain ⟨span, type, frame, problem⟩ := m
  obtain ⟨span', type', frame', problem'⟩ := n
  obtain rfl : span' = span := hspan
  obtain rfl : problem' = problem := hproblem
  obtain rfl : type' = type := htype
  obtain rfl : frame' = frame := hframe
  rfl

/-- The bodies of functions that match are checked alike on stores that do the same. -/
theorem checkBody_inStep {S : StoreRelation} (sim : Simulation S) (options : Options)
    {m : Matching} {f f' : FunctionDecl}
    (hf : f.Matches m f') {s s' : Store} (hs : S m s s') :
    ∃ n, m ≤ n ∧ (Phase.checkBody options FrameId.module f s).1.Matches n
      (Phase.checkBody options FrameId.module f' s').1 ∧
      Except.Rel (Stop.Matches n) (fun _ _ => True) (Phase.checkBody options FrameId.module f s).2.result
        (Phase.checkBody options FrameId.module f' s').2.result ∧
      S n (Phase.checkBody options FrameId.module f s).2.store
        (Phase.checkBody options FrameId.module f' s').2.store := by
  have hfr : m.frame FrameId.module FrameId.module := sim.module hs
  have hwalk : Check.InStep S m FunctionMatches
      (Check.functionWith options FrameId.module f.info f.header f.body fun c fr => Check.block c fr f.body)
      (Check.functionWith options FrameId.module f'.info f'.header f'.body fun c fr => Check.block c fr f'.body) :=
    inStep_functionWith sim hfr hf.info hf.header hf.body fun n c c' fr fr' hle hc hfr =>
      inStep_block sim f.body (hf.body.mono hle) hc hfr
  obtain ⟨n, hle, hst, hresult⟩ := hwalk { store := s } { store := s' } ⟨hs, rfl, .none⟩
  generalize hrun : StateT.run (Check.functionWith options FrameId.module f.info f.header f.body
    fun c fr => Check.block c fr f.body) { store := s } = r at hst hresult
  generalize hrun' : StateT.run (Check.functionWith options FrameId.module f'.info f'.header f'.body
    fun c fr => Check.block c fr f'.body) { store := s' } = r' at hst hresult
  obtain ⟨hstore, -, hstop⟩ := hst
  refine ⟨n, hle, ?_⟩
  unfold Phase.checkBody
  rw [check_of_run hrun, check_of_run hrun']
  refine ⟨⟨hresult.1, hresult.2.1, hresult.2.2⟩, ?_, hstore⟩
  dsimp only
  generalize r.2.stop = o at hstop
  generalize r'.2.stop = o' at hstop
  cases hstop with
  | none => exact .ok trivial
  | some hwhy => exact .error hwhy

section

variable {m : Matching} {options : Options} {s s' : Store}

/-- Two actions that ended alike, on stores that are the same but for spans. -/
structure Outcome.Matches {α : Type} (m : Matching) (o o' : Outcome α) : Prop where
  result : Except.Rel (Stop.Matches m) (fun _ _ => True) o.result o'.result
  store : o.store.Matches m o'.store

/-- Declarations that are the same but for spans, and for the bodies of functions. -/
inductive Decl.HeadMatches (m : Matching) : Decl → Decl → Prop where
  | struct {d d' : StructDecl} (h : d.Matches m.span d') : Decl.HeadMatches m (.struct d) (.struct d')
  | function {f f' : FunctionDecl} (h : f.header.Matches m f'.header) : Decl.HeadMatches m (.function f) (.function f')

theorem Decl.Matches.head {d d' : Decl} (h : d.Matches m d') : d.HeadMatches m d' := by
  cases h with
  | struct h => exact .struct h
  | function h => exact .function h.header

theorem Decl.Matches.imp {m n : Matching} {d d' : Decl} (h : d.Matches m d') (hmn : m.Finer n) : d.Matches n d' := by
  cases h with
  | struct h => exact .struct (h.imp hmn.span)
  | function h => exact .function ⟨h.info.imp hmn, h.header.imp hmn, Expr.Matches.impBlock h.body hmn⟩

/-- An item of a compilation and the one of another compilation, with related declarations. -/
structure Item.Related (R : Decl → Decl → Prop) (i i' : Item) : Prop where
  decl : R i.decl i'.decl
  failed : i'.failed = i.failed

/-- An item of a compilation and the one at another place. -/
abbrev Item.Matches (m : Matching) : Item → Item → Prop := Item.Related (Decl.Matches m)

/-- Two compilations that have come equally far. -/
structure Progress.Matches (m : Matching) (p p' : Progress) : Prop where
  store : p.store.Matches m p'.store
  errors : List.Forall₂ m.problem p.errors p'.errors
  halted : p'.halted = p.halted

section

variable (hm : m.Rigid)

include hm

private theorem runOn_matches {α β : Type} {Q : Matching → α → β → Prop} {a : Action α} {b : Action β}
    (h : InStep Relocated m Q a b) (hs : s.Matches m s') :
    Except.Rel (Stop.Matches m) (Q m) (a.runOn s).result (b.runOn s').result ∧
      (a.runOn s).store.Matches m (b.runOn s').store := by
  obtain ⟨n, hle, ⟨hn, hstore⟩, hrel⟩ := h s s' ⟨hm, hs⟩
  obtain rfl := hm.eq_of_le hn hle
  exact ⟨hrel, hstore⟩

/-- The outcome of an action whose result does not matter. -/
private theorem discard_matches {α : Type} {Q : Matching → α → α → Prop} {a b : Action α} (h : InStep Relocated m Q a b)
    (hs : s.Matches m s') : ((discard a).runOn s).Matches m ((discard b).runOn s') := by
  have hdiscard : InStep Relocated m (fun _ _ _ => True) (discard a) (discard b) :=
    h.bind fun _ _ _ _ _ => inStep_pure trivial
  obtain ⟨hresult, hstore⟩ := runOn_matches hm hdiscard hs
  exact ⟨hresult, hstore⟩

private theorem checkBody_matches (options : Options) {f f' : FunctionDecl}
    (hf : f.Matches m f') (hs : s.Matches m s') :
    (Phase.checkBody options FrameId.module f s).1.Matches m (Phase.checkBody options FrameId.module f' s').1 ∧
      (Phase.checkBody options FrameId.module f s).2.Matches m (Phase.checkBody options FrameId.module f' s').2 := by
  obtain ⟨n, hle, hf', hresult, hn, hstore⟩ :=
    checkBody_inStep simulation options hf (show Relocated m s s' from ⟨hm, hs⟩)
  obtain rfl := hm.eq_of_le hn hle
  exact ⟨hf', hresult, hstore⟩

/-- Before bodies are checked, only the heads of declarations are looked at. -/
private theorem apply_heads {phase : Phase} (hphase : phase ≠ .bodies) (options : Options) {d d' : Decl}
    (hd : d.HeadMatches m d')
    (hs : s.Matches m s') :
    (phase.apply options d s).1 = d ∧ (phase.apply options d' s').1 = d' ∧
      (phase.apply options d s).2.Matches m (phase.apply options d' s').2 := by
  have hmodule : m.frame FrameId.module FrameId.module := hm.frame_iff.mpr rfl
  have hself : Outcome.Matches m (⟨.ok (), s⟩ : Outcome Unit) ⟨.ok (), s'⟩ := ⟨.ok trivial, hs⟩
  cases hd with
  | struct h =>
    cases phase with
    | registration =>
      obtain ⟨hresult, hstore⟩ := runOn_matches hm (inStep_registerStruct hmodule h) hs
      exact ⟨rfl, rfl, hresult, hstore⟩
    | structs =>
      have houtcome := discard_matches hm (inStep_resolveStruct hmodule h) hs
      exact ⟨rfl, rfl, houtcome⟩
    | signatures => exact ⟨rfl, rfl, hself⟩
    | bodies => exact absurd rfl hphase
  | function h =>
    cases phase with
    | registration =>
      obtain ⟨hresult, hstore⟩ := runOn_matches hm (inStep_registerFunction hmodule h) hs
      exact ⟨rfl, rfl, hresult, hstore⟩
    | structs => exact ⟨rfl, rfl, hself⟩
    | signatures =>
      have houtcome := discard_matches hm (inStep_resolveSignature hmodule h.span h.prototype) hs
      exact ⟨rfl, rfl, houtcome⟩
    | bodies => exact absurd rfl hphase

/-- A phase does the same to related declarations, which are related behind it. -/
def Phase.InStep (m : Matching) (R : Decl → Decl → Prop) (options : Options) (phase : Phase) : Prop :=
  ∀ d d' s s', R d d' → s.Matches m s' →
    R (phase.apply options d s).1 (phase.apply options d' s').1 ∧
      (phase.apply options d s).2.Matches m (phase.apply options d' s').2

theorem inStep_heads {phase : Phase} (hphase : phase ≠ .bodies) {R : Decl → Decl → Prop}
    (hR : ∀ d d', R d d' → d.HeadMatches m d') : phase.InStep m R options := by
  intro d d' s s' hd hs
  obtain ⟨hsame, hsame', houtcome⟩ := apply_heads hm hphase options (hR d d' hd) hs
  rw [hsame, hsame']
  exact ⟨hd, houtcome⟩

theorem inStep_matches (phase : Phase) : phase.InStep m (Decl.Matches m) options := by
  by_cases hphase : phase = .bodies
  · subst hphase
    intro d d' s s' hd hs
    cases hd with
    | struct h => exact ⟨.struct h, .ok trivial, hs⟩
    | function h =>
      obtain ⟨hf, houtcome⟩ := checkBody_matches hm options h hs
      exact ⟨.function hf, houtcome⟩
  · exact inStep_heads hm hphase fun _ _ => Decl.Matches.head

end

variable (hm : m.Exact)

include hm

theorem contains_matches {ds ds' : List Diagnostic} {d d' : Diagnostic} (hds : List.Forall₂ m.problem ds ds')
    (hd : m.problem d d') : ds'.contains d' = ds.contains d := by
  rw [List.contains_eq_any_beq, List.contains_eq_any_beq]
  exact any_rel (fun e e' he => by simp only [beq_eq_decide, hm.problem_iff hd he]) hds

private theorem report_matches {p p' : Progress} {d d' : Diagnostic} (hp : p.Matches m p') (hd : m.problem d d') :
    (p.report d).Matches m (p'.report d') := by
  unfold Progress.report
  rw [contains_matches hm hp.errors hd]
  split
  · exact hp
  · exact { hp with errors := List.rel_append hp.errors (.cons hd .nil) }

theorem step_related {R : Decl → Decl → Prop} {phase : Phase} (hphase : phase.InStep m R options) {i i' : Item}
    {p p' : Progress} (hi : i.Related R i') (hp : p.Matches m p') :
    Except.Rel Eq (fun r r' => r.1.Related R r'.1 ∧ r.2.Matches m r'.2) (phase.step options i p)
      (phase.step options i' p') := by
  obtain ⟨d, failed⟩ := i
  obtain ⟨d', failed'⟩ := i'
  obtain ⟨hd, rfl⟩ : R d d' ∧ failed' = failed := ⟨hi.decl, hi.failed⟩
  unfold Phase.step
  rw [hp.halted]
  dsimp only
  split
  · exact .ok ⟨hi, hp⟩
  obtain ⟨hdecl, hresult, hstore⟩ := hphase d d' p.store p'.store hd hp.store
  generalize phase.apply options d p.store = r at hdecl hresult hstore
  generalize phase.apply options d' p'.store = r' at hdecl hresult hstore
  obtain ⟨d, result, s⟩ := r
  obtain ⟨d', result', s'⟩ := r'
  dsimp only at hdecl hresult hstore
  cases hresult with
  | ok => exact .ok ⟨⟨hdecl, rfl⟩, hstore, hp.errors, rfl⟩
  | error hwhy =>
    cases hwhy with
    | fault f => exact .error rfl
    | refused hwhy =>
      exact .ok ⟨⟨hdecl, rfl⟩, { report_matches hm hp hwhy with store := hstore, halted := rfl }⟩

theorem run_related {R : Decl → Decl → Prop} {phase : Phase} (hphase : phase.InStep m R options)
    {items items' : List Item}
    {p p' : Progress} (hitems : List.Forall₂ (Item.Related R) items items') (hp : p.Matches m p') :
    Except.Rel Eq (fun r r' => List.Forall₂ (Item.Related R) r.1 r'.1 ∧ r.2.Matches m r'.2) (phase.run options items p)
      (phase.run options items' p') := by
  induction hitems generalizing p p' with
  | nil => exact .ok ⟨.nil, hp⟩
  | cons hi _ ih =>
    rw [Phase.run_cons, Phase.run_cons]
    refine (step_related hm hphase hi hp).bind fun r r' hr => (ih hr.2).bind fun q q' hq => .ok ?_
    exact ⟨.cons hr.1 hq.1, hq.2⟩

theorem runAll_related {R : Decl → Decl → Prop} {phases : List Phase}
    (hphases : ∀ phase ∈ phases, phase.InStep m R options)
    {items items' : List Item} {p p' : Progress} (hitems : List.Forall₂ (Item.Related R) items items')
    (hp : p.Matches m p') :
    Except.Rel Eq (fun r r' => List.Forall₂ (Item.Related R) r.1 r'.1 ∧ r.2.Matches m r'.2)
      (Phase.runAll options phases items p) (Phase.runAll options phases items' p') := by
  induction phases generalizing items items' p p' with
  | nil => exact .ok ⟨hitems, hp⟩
  | cons phase rest ih =>
    obtain ⟨hphase, hrest⟩ := List.forall_mem_cons.mp hphases
    exact (run_related hm hphase hitems hp).bind fun r r' hr => ih hrest hr.1 hr.2

end

/-! ### Modules -/

/-- Modules that are the same but for spans, perhaps of different files. -/
structure Module.Matches (m : Matching) (a b : Module) : Prop where
  decls : List.Forall₂ (Decl.Matches m) a.decls b.decls
  store : a.store.Matches m b.store

theorem initial_matches (m : Matching) : Store.Matches m {} {} where
  types := ⟨by simp [Types.initial, Types.primitives, TypeEntry.Matches.primitive], rfl⟩
  frames := by
    refine .cons ⟨rfl, .nil, rfl⟩ (.cons ⟨rfl, .nil, rfl⟩ (.cons ⟨rfl, .nil, rfl⟩ .nil))
  functions := .nil
  structs := .nil

theorem start_related {m : Matching} {R : Decl → Decl → Prop} {decls decls' : List Decl}
    (h : List.Forall₂ R decls decls') :
    List.Forall₂ (Item.Related R) (decls.map ({ decl := · })) (decls'.map ({ decl := · })) ∧
      Progress.Matches m { store := {} } { store := {} } :=
  ⟨List.rel_map (fun _ _ hd => ⟨hd, rfl⟩) h, initial_matches m, .nil, rfl⟩

/-- A module that stands somewhere else is compiled to the same module there, with the same problems. -/
theorem Module.compile_matches {m : Matching} (hm : m.Exact) (options : Options) {a b : Module} (h : a.Matches m b) :
    Except.Rel Eq (fun r r' => r.1.Matches m r'.1 ∧ List.Forall₂ m.problem r.2 r'.2) (a.compile options)
      (b.compile options) := by
  have hitems : List.Forall₂ (Item.Matches m) (a.decls.map ({ decl := · })) (b.decls.map ({ decl := · })) :=
    List.rel_map (fun _ _ hd => ⟨hd, rfl⟩) h.decls
  have hstart : Progress.Matches m { store := a.store } { store := b.store } := ⟨h.store, .nil, rfl⟩
  refine (runAll_related hm (fun phase _ => inStep_matches hm.rigid phase) hitems hstart).bind fun r r' hr =>
    .ok ⟨⟨?_, hr.2.store⟩, hr.2.errors⟩
  exact List.rel_map (fun _ _ hi => hi.decl) hr.1

end RainCheck
