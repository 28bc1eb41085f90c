import RainCheck.Proofs.Grounding
import RainCheck.Proofs.Recompilation

/-!
# The first problem

A compilation that ends with the first problem, beside one that goes on behind it (`SourceFile.compile_failFast`).
* A check does not ask whether it goes on behind a problem (`Phase.apply_continuing`), so both take the same steps until
  a declaration is refused.
* From then on one stands still, and the other one loses nothing of what both have found out (`Ahead`): a problem stays
  reported, a type keeps its text, a struct its fields, and a function that was checked is left alone.
-/

namespace RainCheck

open Check

variable {options first every : Options} {decls : List Decl} {phase : Phase}

/-! ### What the checks ask for -/

/-- The same context, with another answer to whether to go on behind a problem. -/
def Context.continuing (c : Context) (b : Bool) : Context :=
  { c with options := { c.options with continueOnError := b } }

namespace Check

theorem builtinRule_continuing (c : Context) (b : Bool) (info : Info) (f : Builtin) (args : List Expr) :
    Action.builtinRule (c.continuing b).options info f args = Action.builtinRule c.options info f args := rfl

theorem returns_continuing (c : Context) (b : Bool) : (c.continuing b).returns = c.returns := rfl

private theorem functionWith_continuing {b : Bool} {walk : Context → FrameId → Check (Block Expr)}
    (hwalk : ∀ c frame, walk (c.continuing b) frame = walk c frame) (frame : FrameId) (info : Info) (header : Header)
    (body : Block Expr) :
    functionWith { options with continueOnError := b } frame info header body walk =
      functionWith options frame info header body walk := by
  have hbody : ∀ returns frame, walk ⟨{ options with continueOnError := b }, returns⟩ frame =
      walk ⟨options, returns⟩ frame := fun returns frame => hwalk ⟨options, returns⟩ frame
  unfold functionWith
  simp only [hbody]

mutual

private theorem expr_continuing (c : Context) (b : Bool) (frame : FrameId) (e : Expr) :
    expr (c.continuing b) frame e = expr c frame e := by
  match e with
  | .integer _ _ | .float _ _ | .boolean _ _ | .identifier _ _ _ | .leaveLoop _ | .nextRound _ => simp only [expr]
  | .member _ base _ _ _ => simp only [expr, expr_continuing c b _ base]
  | .call _ callee args => simp only [expr, expr_continuing c b _ callee, exprs_continuing c b _ args]
  | .builtinCall _ _ args => simp only [expr, exprs_continuing c b _ args, builtinRule_continuing]
  | .unary _ _ operand => simp only [expr, expr_continuing c b _ operand]
  | .binary _ _ lhs rhs => simp only [expr, expr_continuing c b _ lhs, expr_continuing c b _ rhs]
  | .assignment _ target source => simp only [expr, expr_continuing c b _ target, expr_continuing c b _ source]
  | .structLiteral _ _ inits => simp only [expr, fields_continuing c b _ _ _ _ inits]
  | .letBinding _ _ _ init => simp only [expr, expr_continuing c b _ init]
  | .block body => simp only [expr, block_continuing c b _ body]
  | .ifElse _ cond body other =>
    simp only [expr, expr_continuing c b _ cond, block_continuing c b _ body, option_continuing c b _ other]
  | .whileLoop _ cond body => simp only [expr, expr_continuing c b _ cond, block_continuing c b _ body]
  | .endlessLoop _ body => simp only [expr, block_continuing c b _ body]
  | .leaveFunction _ result => simp only [expr, option_continuing c b _ result, returns_continuing]
  | .function info header body =>
    have hbody : ∀ own, functionWith (c.continuing b).options own info header body (fun c frame => block c frame body) =
        functionWith c.options own info header body fun c frame => block c frame body := fun own =>
      functionWith_continuing (fun d frame => block_continuing d b frame body) own info header body
    simp only [expr, hbody]
termination_by structural e

private theorem option_continuing (c : Context) (b : Bool) (frame : FrameId) (e : Option Expr) :
    option (c.continuing b) frame e = option c frame e := by
  match e with
  | none => simp only [option]
  | some e => simp only [option, expr_continuing c b frame e]
termination_by structural e

private theorem exprs_continuing (c : Context) (b : Bool) (frame : FrameId) (es : List Expr) :
    exprs (c.continuing b) frame es = exprs c frame es := by
  match es with
  | [] => simp only [exprs]
  | e :: rest => simp only [exprs, expr_continuing c b frame e, exprs_continuing c b frame rest]
termination_by structural es

private theorem fields_continuing (c : Context) (b : Bool) (frame : FrameId) (owner : String)
    (declared : List (String × TypeId))
    (seen : List String) (inits : List (FieldInit Expr)) :
    fields (c.continuing b) frame owner declared seen inits = fields c frame owner declared seen inits := by
  match inits with
  | [] => simp only [fields]
  | ⟨name, span, value⟩ :: rest =>
    simp only [fields, expr_continuing c b frame value, fields_continuing c b frame owner declared _ rest]
termination_by structural inits

private theorem block_continuing (c : Context) (b : Bool) (frame : FrameId) (body : Block Expr) :
    block (c.continuing b) frame body = block c frame body := by
  match body with
  | ⟨info, entered, stmts, tail⟩ => simp only [block, exprs_continuing c b _ stmts, option_continuing c b _ tail]
termination_by structural body

end

end Check

/-- What a phase does to a declaration does not depend on whether to go on behind a problem. -/
theorem Phase.apply_continuing (b : Bool) (d : Decl) (s : Store) :
    phase.apply { options with continueOnError := b } d s = phase.apply options d s := by
  cases d with
  | struct d => cases phase <;> rfl
  | function f =>
    cases phase with
    | bodies =>
      have hcheck :
          f.check { options with continueOnError := b } FrameId.module s = f.check options FrameId.module s := by
        unfold FunctionDecl.check
        dsimp only
        rw [functionWith_continuing fun c frame => block_continuing c b frame f.body]
      simp only [Phase.apply, Phase.checkBody, hcheck]
    | _ => rfl

/-! ### What lasts -/

/-- The fields of a registered struct are resolved. -/
structure Store.HasFields (s : Store) (d : StructDecl) (t : TypeId) (fields : List (String × TypeId)) : Prop where
  record : s.structs.find? d.span = some ⟨t, FrameId.module⟩
  entry : s.typeAt? t = some (.struct d (.resolved fields))

/-- Types stay what they are, and structs keep their fields. -/
structure Store.Retains (s s' : Store) : Prop where
  types : s.TypesStay s'
  fields : ∀ d t fields, s.HasFields d t fields → s'.HasFields d t fields

/-- The check of a declaration has come to its end: the fields of a struct are resolved, and a function has its type,
which is the last thing that is found out about it. -/
def Decl.Finished (s : Store) : Decl → Prop
  | .struct d => ∃ t fields, s.HasFields d t fields
  | .function f => f.info.type.isSome = true

/-- A function that has its type is left alone; so is every struct. -/
def Decl.Lasts (d d' : Decl) : Prop := (∀ f, d = .function f → f.info.type.isSome = true) → d' = d

namespace Store.Retains

variable {s s' s'' : Store}

private theorem refl (s : Store) : s.Retains s := ⟨.refl s, fun _ _ _ h => h⟩

private theorem trans (h : s.Retains s') (h' : s'.Retains s'') : s.Retains s'' :=
  ⟨h.types.trans h'.types, fun d t fields hd => h'.fields d t fields (h.fields d t fields hd)⟩

private theorem of_grows (hg : s.GrowsTo s') : s.Retains s' where
  types := hg.typesStay
  fields d t fields h := ⟨by rw [hg.structs]; exact h.record, hg.resolved h.entry⟩

end Store.Retains

private theorem Decl.Lasts.refl (d : Decl) : d.Lasts d := fun _ => rfl

private theorem Decl.Lasts.trans {d e f : Decl} (h : d.Lasts e) (h' : e.Lasts f) : d.Lasts f := fun hd => by
  obtain rfl := h hd
  exact h' hd

private theorem Phase.lasts_apply (d : Decl) (s : Store) : d.Lasts (phase.apply options d s).1 := by
  intro hd
  cases d with
  | struct d => cases phase <;> rfl
  | function f =>
    cases phase with
    | bodies => simp only [Phase.apply, Phase.checkBody, check_checked options (hd f rfl)]
    | _ => rfl

private theorem Phase.lasts_step {item item' : Item} {p p' : Progress}
    (h : phase.step options item p = .ok (item', p')) :
    item.decl.Lasts item'.decl := by
  rcases Phase.step_decl h with heq | heq
  · rw [heq]
    exact .refl _
  · rw [heq]
    exact Phase.lasts_apply _ _

/-- Problems are reported behind those that are reported already. -/
private theorem Phase.step_reports {item item' : Item} {p p' : Progress}
    (h : phase.step options item p = .ok (item', p')) :
    p.errors <+: p'.errors := by
  unfold Phase.step at h
  split at h
  · cases h
    exact List.prefix_rfl
  · split at h
    · cases h
      exact List.prefix_rfl
    · cases h
      unfold Progress.refuse Progress.report
      split
      · exact List.prefix_rfl
      · exact List.prefix_append _ _
    · cases h

/-! ### Two compilations side by side -/

/-- One compilation has ended with its first problem; the other one goes on and keeps what both have found out. -/
structure Ahead (items items' : List Item) (p p' : Progress) : Prop where
  halted : p.halted = true
  first : ∃ d, p.errors = [d]
  errors : p.errors <+: p'.errors
  store : p.store.Retains p'.store
  decls : List.Forall₂ Decl.Lasts (items.map (·.decl)) (items'.map (·.decl))

/-- Two compilations that differ in whether they go on behind a problem. -/
inductive Abreast : List Item → List Item → Progress → Progress → Prop where
  | level {items : List Item} {p : Progress} (hhalted : p.halted = false) (herrors : p.errors = []) :
      Abreast items items p p
  | ahead {items items' : List Item} {p p' : Progress} (h : Ahead items items' p p') : Abreast items items' p p'

namespace Phase

variable {done rest items items' : List Item} {item item' : Item} {p p' q : Progress}
  {I : List Item → List Item → Progress → Prop}

/-- A step that is taken with and without going on behind a problem. -/
private theorem step_first (happly : ∀ d s, phase.apply first d s = phase.apply every d s)
    (hfirst : first.continueOnError = false) (hhalted : p.halted = false)
    (herrors : p.errors = []) (hstep : phase.step every item p = .ok (item', p')) :
    (p'.halted = false ∧ p'.errors = [] ∧ phase.step first item p = .ok (item', p')) ∨
      ∃ d, p'.errors = [d] ∧ phase.step first item p = .ok (item', { p' with halted := true }) := by
  unfold Phase.step at hstep ⊢
  rw [happly]
  split at hstep
  · cases hstep
    exact .inl ⟨hhalted, herrors, if_pos (by assumption)⟩
  · rw [if_neg (by assumption)]
    rcases hend : phase.apply every item.decl p.store with ⟨d, ⟨(why | f) | u, s⟩⟩
    · rw [hend] at hstep
      cases hstep
      refine .inr ⟨why, ?_, ?_⟩
      · simp [Progress.refuse, Progress.report, herrors]
      · simp [Progress.refuse, hfirst]
    · rw [hend] at hstep
      cases hstep
    · rw [hend] at hstep
      cases hstep
      exact .inl ⟨hhalted, herrors, rfl⟩

/-- A compilation that has ended keeps standing beside the one that goes on. -/
private theorem run_ahead (first : Options)
    (hstep : ∀ done item rest p, I done (item :: rest) p →
      ∃ item' p', phase.step every item p = .ok (item', p') ∧ I (done ++ [item']) rest p' ∧ p.store.Retains p'.store)
    (hI : I done items' p') (h : Ahead items items' p p') :
    ∃ all q, phase.run first items p = .ok (items, p) ∧
      phase.run every items' p' = .ok (all, q) ∧ I (done ++ all) [] q ∧
      Ahead items all p q := by
  induction items' generalizing done items p' with
  | nil => exact ⟨[], p', run_halted h.halted, rfl, by simpa using hI, h⟩
  | cons item' rest' ih =>
    obtain ⟨item, rest, rfl, hitem, hrest⟩ : ∃ item rest, items = item :: rest ∧ item.decl.Lasts item'.decl ∧
        List.Forall₂ Decl.Lasts (rest.map (·.decl)) (rest'.map (·.decl)) := by
      have hdecls := h.decls
      cases items with
      | nil => cases hdecls
      | cons item rest =>
        obtain ⟨hitem, hrest⟩ := List.forall₂_cons.mp hdecls
        exact ⟨item, rest, rfl, hitem, hrest⟩
    obtain ⟨item₁, p₁, hitem₁, hI₁, hretains⟩ := hstep done item' rest' p' hI
    have hahead : Ahead rest rest' p p₁ :=
      ⟨h.halted, h.first, h.errors.trans (step_reports hitem₁), h.store.trans hretains, hrest⟩
    obtain ⟨all, q, -, hrun, hI', h'⟩ := ih hI₁ hahead
    refine ⟨item₁ :: all, q, run_halted h.halted, ?_, by simpa using hI', ?_⟩
    · rw [run_cons, hitem₁, ok_bind]
      dsimp only
      rw [hrun]
      rfl
    · exact ⟨h'.halted, h'.first, h'.errors, h'.store, .cons (hitem.trans (lasts_step hitem₁)) h'.decls⟩

/-- A phase of two compilations that took the same steps so far. -/
private theorem run_level (happly : ∀ d s, phase.apply first d s = phase.apply every d s)
    (hfirst : first.continueOnError = false)
    (hstep : ∀ done item rest p, I done (item :: rest) p →
      ∃ item' p', phase.step every item p = .ok (item', p') ∧ I (done ++ [item']) rest p' ∧ p.store.Retains p'.store)
    (hI : I done items p) (hhalted : p.halted = false) (herrors : p.errors = []) :
    ∃ some all q r, phase.run first items p = .ok (some, q) ∧ phase.run every items p = .ok (all, r) ∧
      I (done ++ all) [] r ∧ Abreast some all q r := by
  -- by induction on the items: both runs are the same up to the first problem
  induction items generalizing done p with
  | nil => exact ⟨[], [], p, p, rfl, rfl, by simpa using hI, .level hhalted herrors⟩
  | cons item rest ih =>
    obtain ⟨item₁, p₁, hitem₁, hI₁, hretains⟩ := hstep done item rest p hI
    rcases step_first happly hfirst hhalted herrors hitem₁ with ⟨hhalted₁, herrors₁, hfirst₁⟩ | ⟨d, hd, hfirst₁⟩
    · obtain ⟨some, all, q, r, hrun, hrun', hI', h'⟩ := ih hI₁ hhalted₁ herrors₁
      refine ⟨item₁ :: some, item₁ :: all, q, r, ?_, ?_, by simpa using hI', ?_⟩
      · rw [run_cons, hfirst₁, ok_bind]
        dsimp only
        rw [hrun]
        rfl
      · rw [run_cons, hitem₁, ok_bind]
        dsimp only
        rw [hrun']
        rfl
      · cases h' with
        | level hhalted' herrors' => exact .level hhalted' herrors'
        | ahead h' => exact .ahead ⟨h'.halted, h'.first, h'.errors, h'.store, .cons (.refl _) h'.decls⟩
    · -- the first problem
      have hahead : Ahead rest rest { p₁ with halted := true } p₁ :=
        ⟨rfl, ⟨d, hd⟩, List.prefix_rfl, .refl _, List.forall₂_same.mpr fun e _ => .refl e⟩
      obtain ⟨all, r, hrun, hrun', hI', h'⟩ := run_ahead first hstep hI₁ hahead
      refine ⟨item₁ :: rest, item₁ :: all, { p₁ with halted := true }, r, ?_, ?_, by simpa using hI', ?_⟩
      · rw [run_cons, hfirst₁, ok_bind]
        dsimp only
        rw [hrun]
        rfl
      · rw [run_cons, hitem₁, ok_bind]
        dsimp only
        rw [hrun']
        rfl
      · exact .ahead ⟨h'.halted, h'.first, h'.errors, h'.store, .cons (.refl _) h'.decls⟩

/-- A phase of two compilations that differ in whether they go on behind a problem. -/
private theorem run_abreast (happly : ∀ d s, phase.apply first d s = phase.apply every d s)
    (hfirst : first.continueOnError = false)
    (hstep : ∀ done item rest p, I done (item :: rest) p →
      ∃ item' p', phase.step every item p = .ok (item', p') ∧ I (done ++ [item']) rest p' ∧ p.store.Retains p'.store)
    (hI : I [] items' p') (h : Abreast items items' p p') :
    ∃ some all q r, phase.run first items p = .ok (some, q) ∧ phase.run every items' p' = .ok (all, r) ∧ I all [] r ∧
      Abreast some all q r := by
  cases h with
  | level hhalted herrors => simpa using run_level happly hfirst hstep hI hhalted herrors
  | ahead h =>
    obtain ⟨all, r, hrun, hrun', hI', h'⟩ := run_ahead first hstep hI h
    exact ⟨items, all, p, r, hrun, hrun', by simpa using hI', .ahead h'⟩

end Phase

/-! ### The phases -/

/-- While names are registered, no struct has fields yet. -/
private theorem Registered.retains {done : List Decl} {m x : Frame} {s s' : Store} (h : Registered done m x s)
    (hstay : s.TypesStay s') : s.Retains s' where
  types := hstay
  fields d t fields hd := by
    rcases h.entries t _ hd.entry with ⟨name, heq⟩ | ⟨e, -, heq⟩
    · cases heq
    · cases heq

private theorem Registering.retains (hcontinue : every.continueOnError = true)
    (hparsed : Parsed decls) {done rest : List Item}
    {item : Item} {p : Progress} (h : Registering every decls done (item :: rest) p ∧ p.store.Grounded) :
    ∃ item' p', Phase.registration.step every item p = .ok (item', p') ∧
      (Registering every decls (done ++ [item']) rest p' ∧ p'.store.Grounded) ∧ p.store.Retains p'.store := by
  obtain ⟨item', p', hstep, h'⟩ := h.1.step hparsed
  obtain ⟨hgrounded, hstay⟩ := Phase.stays_step hstep h.2
  obtain ⟨m, x, hregistered⟩ := h.1.registered (h.1.accounted.running hcontinue)
  exact ⟨item', p', hstep, ⟨h', hgrounded⟩, hregistered.retains hstay⟩

private theorem Phase.Studies.retains {P : Bool → Decl → Store → Prop}
    (hphase : phase.Studies every decls P) {done rest : List Item}
    {item : Item} {p : Progress} (h : Underway every decls (done ++ item :: rest) p) :
    ∃ item' p', phase.step every item p = .ok (item', p') ∧ Underway every decls (done ++ [item'] ++ rest) p' ∧
      p.store.Retains p'.store := by
  obtain ⟨item', p', hstep, -, h', hg, -⟩ := hphase.step h
  exact ⟨item', p', hstep, h', .of_grows hg.toGrowsTo⟩

private theorem Checked.retains (hparsed : Parsed decls) {done rest : List Item} {item : Item} {p : Progress}
    (h : Checked every decls done (item :: rest) p) :
    ∃ item' p', Phase.bodies.step every item p = .ok (item', p') ∧ Checked every decls (done ++ [item']) rest p' ∧
      p.store.Retains p'.store := by
  obtain ⟨item', p', hstep, h', hg⟩ := h.step hparsed
  exact ⟨item', p', hstep, h', .of_grows hg⟩

/-- What two compilations of a module leave behind. -/
private theorem Module.compile_abreast (options : Options) (file : SourceFile) (hparsed : Parsed decls) :
    ∃ some all q r, Abreast some all q r ∧
      Module.compile { options with continueOnError := false } { file, decls } =
        .ok ({ file, decls := some.map (·.decl), store := q.store }, q.errors) ∧
      Module.compile { options with continueOnError := true } { file, decls } =
        .ok ({ file, decls := all.map (·.decl), store := r.store }, r.errors) := by
  have happly : ∀ (phase : Phase) d s, phase.apply { options with continueOnError := false } d s =
      phase.apply { options with continueOnError := true } d s := fun phase d s =>
    (Phase.apply_continuing false d s).trans (Phase.apply_continuing true d s).symm
  have hstart := Registering.start { options with continueOnError := true } decls
  obtain ⟨some₁, all₁, q₁, r₁, hrun₁, hrun₁', -, h₁⟩ := Phase.run_abreast (happly .registration) rfl
    (I := fun done rest p => Registering { options with continueOnError := true } decls done rest p ∧ p.store.Grounded)
    (fun _ _ _ _ => Registering.retains rfl hparsed) ⟨hstart, Store.grounded_initial⟩ (.level rfl rfl)
  obtain ⟨_, _, hrun, -, hunderway₁, -⟩ := registration_ends { options with continueOnError := true } hparsed
  cases hrun₁'.symm.trans hrun
  obtain ⟨some₂, all₂, q₂, r₂, hrun₂, hrun₂', hunderway₂, h₂⟩ := Phase.run_abreast (happly .structs) rfl
    (I := fun done rest p => Underway { options with continueOnError := true } decls (done ++ rest) p)
    (fun _ _ _ _ => (studies_structs _ decls).retains) hunderway₁ h₁
  obtain ⟨some₃, all₃, q₃, r₃, hrun₃, hrun₃', hunderway₃, h₃⟩ := Phase.run_abreast (happly .signatures) rfl
    (I := fun done rest p => Underway { options with continueOnError := true } decls (done ++ rest) p)
    (fun _ _ _ _ => (studies_signatures _ hparsed).retains) (by simpa using hunderway₂) h₂
  obtain ⟨some₄, all₄, q₄, r₄, hrun₄, hrun₄', -, h₄⟩ := Phase.run_abreast (happly .bodies) rfl
    (I := Checked { options with continueOnError := true } decls) (fun _ _ _ _ => Checked.retains hparsed)
    ⟨by simpa using hunderway₃, by simp⟩ h₃
  exact ⟨some₄, all₄, q₄, r₄, h₄, Module.compile_of_runs hrun₁ hrun₂ hrun₃ hrun₄,
    Module.compile_of_runs hrun₁' hrun₂' hrun₃' hrun₄'⟩

/-- What is finished in one module is the same in another one, and types have the same texts. -/
structure Module.Upholds (m m' : Module) : Prop where
  decls : ∀ (i : Nat) (d : Decl), m.decls[i]? = some d → d.Finished m.store → m'.decls[i]? = some d
  fields : ∀ d t fields, m.store.HasFields d t fields → m'.store.HasFields d t fields
  texts : ∀ t text, m.store.types.text t = .ok text → m'.store.types.text t = .ok text

private theorem Ahead.upholds {items items' : List Item} {p p' : Progress}
    (h : Ahead items items' p p') (file : SourceFile) :
    Module.Upholds { file, decls := items.map (·.decl), store := p.store }
      { file, decls := items'.map (·.decl), store := p'.store } where
  decls i d hd hfinished := by
    obtain ⟨hlt, hget⟩ := List.getElem?_eq_some_iff.mp hd
    have hlt' : i < (items'.map (·.decl)).length := h.decls.length_eq ▸ hlt
    have hlasts := List.Forall₂.get h.decls hlt hlt'
    refine List.getElem?_eq_some_iff.mpr ⟨hlt', ?_⟩
    refine (hlasts fun f hf => ?_).trans hget
    have hdf : d = .function f := hget.symm.trans hf
    rw [hdf] at hfinished
    exact hfinished
  fields := h.store.fields
  texts _ _ := h.store.types.text

/--
Ending with the first problem is the beginning of finding all: the problem is the first one that is
found by going on, no problem is found either way or neither way, and then everything else is the
same, too.  What was finished by then is the same behind all problems.
-/
theorem SourceFile.compile_failFast (file : SourceFile) (options : Options) :
    ∃ first every, file.compile { options with continueOnError := false } = .ok first ∧
      file.compile { options with continueOnError := true } = .ok every ∧
      first.errors = every.errors.take 1 ∧ first.ok = every.ok ∧ (first.ok = true → first = every) ∧
      ∀ m, first.module = some m → ∃ m', every.module = some m' ∧ m.Upholds m' := by
  rcases file.declarations_parsed with ⟨decls, hdecls, hparsed⟩ | ⟨d, hrefused⟩
  · obtain ⟨some, all, q, r, h, hcompile, hcompile'⟩ := Module.compile_abreast options file hparsed
    refine ⟨_, _, file.compile_of_module hdecls hcompile, file.compile_of_module hdecls hcompile', ?_⟩
    cases h with
    | level _ herrors =>
      refine ⟨by simp [herrors], rfl, fun _ => rfl, fun m hm => ⟨m, hm, ?_⟩⟩
      exact ⟨fun _ _ h _ => h, fun _ _ _ h => h, fun _ _ h => h⟩
    | ahead h =>
      obtain ⟨d, hd⟩ := h.first
      obtain ⟨more, hmore⟩ := h.errors
      have hfirst : CompiledUnit.ok ⟨file, Option.some ⟨file, some.map (·.decl), q.store⟩, q.errors⟩ = false := by
        simp [CompiledUnit.ok, hd]
      refine ⟨by simp [← hmore, hd], ?_, fun hok => absurd hok (by simp [hfirst]), ?_⟩
      · rw [hfirst]
        simp [CompiledUnit.ok, ← hmore, hd]
      · rintro m hm
        cases hm
        exact ⟨_, rfl, h.upholds file⟩
  · refine ⟨_, _, file.compile_of_refused _ hrefused, file.compile_of_refused _ hrefused, rfl, rfl, fun _ => rfl, ?_⟩
    rintro m hm
    cases hm

end RainCheck
