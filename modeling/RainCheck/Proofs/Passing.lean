import RainCheck.Proofs.Grounding
import RainCheck.Proofs.Locals
import RainCheck.Proofs.Nodes
import RainCheck.Proofs.Repeating

/-!
# Walks that are made again

A walk that is refused leaves a tree in which all that was found before the problem has a type.  This module says what
a second walk meets on its way to the problem.
* A part that was passed has types everywhere (`Visit.Sound.goes`), so it is skipped (`run_typed`).
* Rules that were applied give the same again (`attempt_again`, `conclude_again`).
* Parameters are declared anew, in a frame of their own (`bindParams_again`).
-/

namespace RainCheck

open Check RainCheck.Action
open Relation (ReflTransGen)

/-- The nodes of a part of a tree. -/
def Part.nodes : Part → List Expr
  | .expr e => e.nodes
  | .option e => Expr.nodesOption e
  | .exprs es => Expr.nodesAll es
  | .fields _ _ _ inits => Expr.nodesFields inits
  | .block b => Expr.nodesBlock b

/-- A measure for the tree of a part. -/
noncomputable def Part.size : Part → Nat
  | .expr e => sizeOf e
  | .option e => sizeOf e
  | .exprs es => sizeOf es
  | .fields _ _ _ inits => sizeOf inits
  | .block b => sizeOf b

/-- The part of the tree that a visit leaves. -/
def Visit.result (v : Visit) : Part :=
  match v.part with
  | .expr e => .expr ((Check.expr v.context v.frame e).run v.state).1
  | .option e => .option ((Check.option v.context v.frame e).run v.state).1
  | .exprs es => .exprs ((Check.exprs v.context v.frame es).run v.state).1
  | .fields owner declared seen inits =>
    .fields owner declared seen ((Check.fields v.context v.frame owner declared seen inits).run v.state).1
  | .block b => .block ((Check.block v.context v.frame b).run v.state).1

private theorem Visit.Begins.part {options : Options} {own : FrameId} {header : Header}
    {body : Block Expr} {st : CheckState}
    {v : Visit} (h : v.Begins options own header body st) : v.part = .block body := by
  cases h
  rfl

theorem Visit.Step.nodes {v w : Visit} (h : v.Step w) : ∀ n ∈ w.part.nodes, n ∈ v.part.nodes := by
  intro n hn
  cases h with
  | nested _ _ _ hbegins =>
    rw [hbegins.part] at hn
    exact List.mem_cons_of_mem _ hn
  | _ => simp_all [Part.nodes, Expr.nodes, Expr.nodesOption, Expr.nodesAll, Expr.nodesFields, Expr.nodesBlock]

theorem Visit.Step.smaller {v w : Visit} (h : v.Step w) : w.part.size < v.part.size := by
  cases h with
  | nested _ _ _ hbegins =>
    rw [hbegins.part]
    simp only [Part.size, Expr.function.sizeOf_spec]
    omega
  | _ =>
    simp [Part.size]
    try omega

/-! ### What is passed on the way to a problem -/

/-- All expressions of a part have a type. -/
def Part.Typed (s : Store) : Part → Prop
  | .expr e => ∃ t, e.info.Typed s t
  | .option e => ∀ x ∈ e, ∃ t, x.info.Typed s t
  | .exprs es => ∀ e ∈ es, ∃ t, e.info.Typed s t
  | .fields _ _ _ inits => ∀ f ∈ inits, ∃ t, f.value.info.Typed s t
  | .block b => ∃ t, b.info.Typed s t

/-- The variables that a part declares in its frame. -/
def Part.declared : Part → List Variable
  | .expr e => e.declared
  | .exprs es => es.flatMap Expr.declared
  | _ => []

/-- A walk on the way to a problem: more is known afterwards, the frame is as good as before, and so are the loops. -/
structure CheckState.Along (fr : FrameId) (st st' : CheckState) : Prop where
  grows : st.store.GrowsTo st'.store
  inner : st.store.Inner fr st.store.Resolved → st'.store.Inner fr st'.store.Resolved
  loops : st'.loops.isEmpty = st.loops.isEmpty

namespace CheckState.Along

variable {L : Listing} {fr : FrameId} {p : Footprint} {st st' st'' : CheckState}

theorem refl (st : CheckState) : st.Along fr st := ⟨.refl _, fun h => h, rfl⟩

theorem trans (h : st.Along fr st') (h' : st'.Along fr st'') : st.Along fr st'' :=
  ⟨h.grows.trans h'.grows, fun hinner => h'.inner (h.inner hinner), h'.loops.trans h.loops⟩

private theorem of_goes (h : st.Goes L fr p st') (hstop : st'.stop = none)
    (hdeclared : ∀ x ∈ p.declared, x.kind.isFunction = true → st'.store.Resolved x.span)
    (hloops : st'.loops.isEmpty = st.loops.isEmpty) : st.Along fr st' := by
  refine ⟨h.grows, fun hinner => ?_, hloops⟩
  exact (hinner.mono fun _ => .grow h.grows).declare h.grows h.moves.leaves (h.adds hstop) hdeclared

end CheckState.Along

private theorem CheckState.Advances.isEmpty {st st' : CheckState} (h : st.Advances st') :
    st'.loops.isEmpty = st.loops.isEmpty := by
  obtain ⟨left, hleft⟩ := h.loops
  rw [hleft]
  cases st.loops <;> rfl

section

variable {L : Listing} {functions : List Variable} {uses : List Use} {σ : Scope} {v w : Visit} {d : Diagnostic}

/-- A visit that comes to its end gives a type to everything. -/
theorem Visit.Sound.goes (hv : v.Sound L functions uses σ) :
    v.state.Goes L v.frame ⟨v.part.mentions, v.part.uses functions σ, v.part.declared⟩ v.after ∧
      (v.after.stop = none → v.result.Typed v.after.store) := by
  obtain ⟨c, fr, part, st⟩ := v
  obtain ⟨hr, hf, -⟩ := hv
  cases part with
  | expr e =>
    obtain ⟨b, hf⟩ := hf
    obtain ⟨hgo, hP⟩ := checks_expr e hf c fr σ st hr
    exact ⟨hgo, fun hstop => (hP hstop).typed⟩
  | option e =>
    obtain ⟨hgo, hP⟩ := checks_option e hf c fr σ st hr
    exact ⟨hgo, fun hstop x hx => (hP hstop x hx).typed⟩
  | exprs es =>
    obtain ⟨b, hf⟩ := hf
    obtain ⟨hgo, hP⟩ := checks_statements es hf c fr σ st hr
    exact ⟨hgo, fun hstop x hx => (hP hstop x hx).typed⟩
  | fields owner declared seen inits =>
    obtain ⟨hgo, hP⟩ := checks_fields inits hf.1 c fr σ st owner declared seen hr hf.2
    exact ⟨hgo, fun hstop x hx => ((hP hstop).1 x hx).typed⟩
  | block b =>
    obtain ⟨hgo, hP⟩ := checks_blockOf b hf c fr σ st hr
    exact ⟨hgo, fun hstop => (hP hstop).typed⟩

private theorem Visit.loops (v : Visit) : v.after.loops.isEmpty = v.state.loops.isEmpty := by
  obtain ⟨c, fr, part, st⟩ := v
  cases part with
  | expr e => exact (advances_expr e c fr st).isEmpty
  | option e => exact (advances_option e c fr st).isEmpty
  | exprs es => exact (advances_exprs es c fr st).isEmpty
  | fields owner declared seen inits => exact (advances_fields inits c fr owner declared seen st).isEmpty
  | block b => exact (advances_block b c fr st).isEmpty

end

section

variable {c : Context} {fr : FrameId} {σ : CheckState} {s : Store}

/-! ### What has a type is skipped -/

theorem run_typed {e : Expr} (h : (Part.expr e).Typed s) : (Check.expr c fr e).run σ = (e, σ) := by
  obtain ⟨t, ht⟩ := h
  rw [Check.expr.eq_def]
  cases hstop : σ.stop with
  | some why => exact run_ended hstop rfl
  | none =>
    change (if (σ.stop.isSome || e.info.type.isSome) = true then (pure e : Check Expr) else _).run σ = _
    rw [ht.type, Option.isSome_some, Bool.or_true, if_pos rfl]
    rfl

theorem run_typed_option {e : Option Expr} (h : (Part.option e).Typed s) : (Check.option c fr e).run σ = (e, σ) := by
  cases e with
  | none =>
    rw [Check.option]
    rfl
  | some e =>
    rw [Check.option]
    change (let (x, st) := (Check.expr c fr e).run σ; (some x, st)) = _
    rw [run_typed (h e rfl)]

theorem run_typed_all {es : List Expr} (h : (Part.exprs es).Typed s) : (Check.exprs c fr es).run σ = (es, σ) := by
  induction es with
  | nil =>
    rw [Check.exprs]
    rfl
  | cons e rest ih =>
    rw [Check.exprs]
    change (let (x, st) := (Check.expr c fr e).run σ;
      let (xs, st') := (Check.exprs c fr rest).run st; (x :: xs, st')) = _
    rw [run_typed (h e List.mem_cons_self)]
    dsimp only
    rw [ih fun x hx => h x (List.mem_cons_of_mem _ hx)]

theorem run_typed_block {b : Block Expr} (h : (Part.block b).Typed s) : (Check.block c fr b).run σ = (b, σ) := by
  obtain ⟨t, ht⟩ := h
  rw [Check.block.eq_def]
  cases hstop : σ.stop with
  | some why => exact run_ended hstop rfl
  | none =>
    change (if (σ.stop.isSome || b.info.type.isSome) = true then (pure b : Check (Block Expr)) else _).run σ = _
    rw [ht.type, Option.isSome_some, Bool.or_true, if_pos rfl]
    rfl

end

/-! ### Rules that are applied again -/

section

variable {α β : Type} {Q : Store → Prop} {st st' σ : CheckState}

/-- A state that is not ended stays as it is. -/
theorem CheckState.with_stop (h : σ.stop = none) : { σ with stop := none } = σ := by
  cases σ
  cases h
  rfl

/-- An action that is repeated by a second walk ends it if it has ended the first one. -/
theorem attempt_again {a b : Action α} {o : Option α} (h : Repeats Q st.store a b) (hopen : st.stop = none)
    (hrun : (attempt a).run st = (o, st')) (hfault : ∀ f, st'.stop ≠ some (.fault f)) (hσ : σ.stop = none)
    (hg : st'.store.GrowsTo σ.store) (hQ : Q σ.store) : (attempt b).run σ = (o, { σ with stop := st'.stop }) := by
  rw [run_attempt hopen] at hrun
  rw [run_attempt hσ]
  rcases ha : a.run.run st.store with ⟨why | x, s⟩
  · rw [ha] at hrun
    cases hrun
    rw [(h _ _ ha fun f hf => hfault f (congrArg some (Except.error.inj hf))).2 σ.store hg hQ]
  · rw [ha] at hrun
    cases hrun
    rw [(h _ _ ha (by simp)).2 σ.store hg hQ, hopen, CheckState.with_stop hσ]

theorem conclude_again {info i : Info} {rule rule₂ : Action Info} (h : Repeats Q st.store rule rule₂)
    (hopen : st.stop = none) (hrun : (conclude info rule).run st = (i, st')) (hfault : ∀ f, st'.stop ≠ some (.fault f))
    (hσ : σ.stop = none) (hg : st'.store.GrowsTo σ.store) (hQ : Q σ.store) :
    (conclude info rule₂).run σ = (i, { σ with stop := st'.stop }) := by
  obtain ⟨o, _, hattempt, hreturn⟩ := run_bind_inv hrun
  cases hreturn
  have hrepeats : Repeats Q st.store (do settle (← rule)) (do settle (← rule₂)) := h.bind fun _ _ _ => repeats_settle
  exact run_bind_of (attempt_again hrepeats hopen hattempt hfault hσ hg hQ)

theorem demand_again {a b : Action Unit} (h : Repeats Q st.store a b) (hopen : st.stop = none)
    (hrun : (demand a).run st = ((), st')) (hfault : ∀ f, st'.stop ≠ some (.fault f)) (hσ : σ.stop = none)
    (hg : st'.store.GrowsTo σ.store) (hQ : Q σ.store) : (demand b).run σ = ((), { σ with stop := st'.stop }) := by
  obtain ⟨o, _, hattempt, hreturn⟩ := run_bind_inv hrun
  cases hreturn
  exact run_bind_of (attempt_again h hopen hattempt hfault hσ hg hQ)

/-- A rule that refuses a node leaves it as it is. -/
theorem conclude_stopped {info i : Info} {rule : Action Info} {why : Stop}
    (hrun : (conclude info rule).run st = (i, st'))
    (hstop : st'.stop = some why) : i = info := by
  obtain ⟨o, _, hattempt, hreturn⟩ := run_bind_inv hrun
  cases hreturn
  cases o with
  | none => rfl
  | some x =>
    rw [attempt_alive hattempt] at hstop
    cases hstop

theorem lift_not_refused {r : Except Fault α} {s s' : Store} {d : Diagnostic} :
    (lift r).run.run s ≠ (.error (.refused d), s') := by
  cases r <;> exact fun h => nomatch h

private theorem settle_not_refused {i : Info} {s s' : Store} {d : Diagnostic} :
    (settle i).run.run s ≠ (.error (.refused d), s') := by
  intro h
  unfold settle at h
  rw [run_bind] at h
  rcases htype : (typeOf i).run.run s with ⟨why | t, s₁⟩
  · rw [htype] at h
    cases h
    exact lift_not_refused htype
  · rw [htype] at h
    change ((lift (s₁.types.isReference t) >>= _).run.run s₁) = _ at h
    rw [run_bind] at h
    rcases hreference : (lift (s₁.types.isReference t)).run.run s₁ with ⟨why | b, s₂⟩
    · rw [hreference] at h
      cases h
      exact lift_not_refused hreference
    · rw [hreference] at h
      cases h

/-- A node whose rule is refused. -/
theorem conclude_refused {info : Info} {rule : Action Info} {d : Diagnostic} {s : Store} (hopen : st.stop = none)
    (hrule : rule.run.run st.store = (.error (.refused d), s)) :
    (conclude info rule).run st = (info, { st with store := s, stop := some (.refused d) }) := by
  refine run_bind_of (x := none) ?_
  rw [run_attempt hopen, run_bind, hrule]

/-- A node is refused by its rule only. -/
theorem conclude_refused_inv {info i : Info} {rule : Action Info} {d : Diagnostic} (hopen : st.stop = none)
    (hrun : (conclude info rule).run st = (i, st')) (hstop : st'.stop = some (.refused d)) :
    rule.run.run st.store = (.error (.refused d), st'.store) := by
  obtain ⟨o, _, hattempt, hreturn⟩ := run_bind_inv hrun
  cases hreturn
  rw [run_attempt hopen, run_bind] at hattempt
  rcases hrule : rule.run.run st.store with ⟨why | j, s⟩
  · rw [hrule] at hattempt
    cases hattempt
    cases hstop
    rfl
  · rw [hrule] at hattempt
    dsimp only at hattempt
    rcases hsettle : (settle j).run.run s with ⟨why | k, s'⟩
    · rw [hsettle] at hattempt
      cases hattempt
      cases hstop
      exact absurd hsettle settle_not_refused
    · rw [hsettle] at hattempt
      cases hattempt
      cases hopen.symm.trans hstop

/-- What is found out about a node without a rule is not refused. -/
theorem conclude_return {info i j : Info} {d : Diagnostic} (hopen : st.stop = none)
    (hrun : (conclude info (pure j)).run st = (i, st')) : st'.stop ≠ some (.refused d) :=
  fun hstop => nomatch conclude_refused_inv hopen hrun hstop

end

/-! ### Parameters -/

section

variable {L : Listing} {fr fr₂ : FrameId} {st st' σ : CheckState} {f f₂ : Frame}

/-- A parameter with its type. -/
def Param.bind (p : Param) (t : TypeId) : Param := { p with binding := { p.binding with type := .borrowed t } }

/-- The state behind a parameter: its name is declared, or has been declared before. -/
def CheckState.declared (st : CheckState) (fr : FrameId) (f : Frame) (v : Variable) : CheckState :=
  if f.has v.name then { st with stop := some (.refused ⟨v.span, .duplicateDeclaration v.name⟩) }
  else { st with store := st.store.addVariable fr f v }

private theorem run_bindParams {p : Param} {params : List Param} {t : TypeId} {types : List TypeId}
    (hopen : st.stop = none)
    (hf : st.store.frame? fr = some f) :
    (bindParams fr (p :: params) (t :: types)).run st =
      let r := (bindParams fr params types).run (st.declared fr f (p.bind t).binding)
      (p.bind t :: r.1, r.2) := by
  have hdemand : (demand (declare fr (p.bind t).binding)).run st = ((), st.declared fr f (p.bind t).binding) := by
    refine run_bind_of (x := if f.has (p.bind t).binding.name then none else some ()) ?_
    rw [run_attempt hopen, run_declare hf]
    unfold CheckState.declared
    cases f.has (p.bind t).binding.name <;> rfl
  rw [bindParams]
  refine Eq.trans (@run_open _ _ _ _ id hopen rfl) ?_
  exact run_bind_of hdemand

private theorem run_bindParams_ended {params : List Param} {types : List TypeId} {why : Stop}
    (hstop : st.stop = some why) :
    ∃ ps, (bindParams fr params types).run st = (ps, st) := by
  cases params with
  | nil => exact ⟨[], rfl⟩
  | cons p params =>
    cases types with
    | nil =>
      refine ⟨p :: params, run_bind_of (x := ()) ?_⟩
      exact run_bind_of (run_attempt_ended hstop)
    | cons t types => exact ⟨p :: params, @run_ended _ _ _ _ _ id hstop rfl⟩

private theorem CheckState.grows_declared {v : Variable} (hf : st.store.frame? fr = some f) :
    st.store.GrowsTo (st.declared fr f v).store := by
  unfold CheckState.declared
  split
  · exact .refl _
  · exact (Store.extends_addVariable hf).toGrowsTo

theorem bindParams_grows {params params' : List Param} {types : List TypeId} (hf : st.store.frame? fr = some f)
    (hrun : (bindParams fr params types).run st = (params', st')) : st.store.GrowsTo st'.store := by
  induction params generalizing types st params' f with
  | nil =>
    cases hrun
    exact .refl _
  | cons p params ih =>
    cases hopen : st.stop with
    | some why =>
      obtain ⟨ps, hps⟩ := @run_bindParams_ended fr st (p :: params) types why hopen
      cases hps.symm.trans hrun
      exact .refl _
    | none =>
      cases types with
      | nil =>
        obtain ⟨_, st₁, hdemand, hreturn⟩ := run_bind_inv hrun
        cases hreturn
        obtain ⟨_, _, hattempt, hreturn⟩ := run_bind_inv hdemand
        cases hreturn
        rw [run_attempt hopen] at hattempt
        cases hattempt
        exact .refl _
      | cons t types =>
        rw [run_bindParams hopen hf] at hrun
        cases hrun
        have hg := CheckState.grows_declared (v := (p.bind t).binding) hf
        obtain ⟨f', hf', -⟩ := hg.frames fr f hf
        exact hg.trans (ih hf' rfl)

private theorem CheckState.declared_new {v : Variable} (hnew : f.has v.name = false) :
    st.declared fr f v = { st with store := st.store.addVariable fr f v } := by
  unfold CheckState.declared
  rw [if_neg (by simp [hnew])]

private theorem CheckState.declared_old {v : Variable} (hold : f.has v.name = true) :
    st.declared fr f v = { st with stop := some (.refused ⟨v.span, .duplicateDeclaration v.name⟩) } := by
  unfold CheckState.declared
  rw [if_pos hold]

/-- Parameters that are bound again are declared as before, or one of their names is refused again. -/
theorem bindParams_again {params params' : List Param} {types : List TypeId} (hopen : st.stop = none)
    (hσ : σ.stop = none) (hs : σ.Sound L) (hf : st.store.frame? fr = some f) (hf₂ : σ.store.frame? fr₂ = some f₂)
    (hhas : ∀ name, f₂.has name = f.has name) (hparams : ∀ p ∈ params, p.Fresh)
    (htypes : ∀ t ∈ types, σ.store.Settled t) (hlen : types.length = params.length)
    (hrun : (bindParams fr params types).run st = (params', st')) :
    ∃ params₂ σ', (bindParams fr₂ params' types).run σ = (params₂, σ') ∧ σ'.stop = st'.stop ∧ σ'.loops = σ.loops ∧
      σ.store.Moves L fr₂ [] σ'.store ∧
      (st'.stop = none → σ.store.Adds σ'.store fr₂ (params.map (·.binding))) := by
  induction params generalizing types st st' σ params' f f₂ with
  | nil =>
    cases hrun
    exact ⟨[], σ, rfl, by rw [hσ, hopen], rfl, .refl hs.store, fun _ => .refl _ _⟩
  | cons p params ih =>
    cases types with
    | nil => cases hlen
    | cons t types =>
      have hp := hparams p List.mem_cons_self
      rw [run_bindParams hopen hf] at hrun
      rcases hrest : (bindParams fr params types).run (st.declared fr f (p.bind t).binding) with ⟨rest, st₁⟩
      rw [hrest] at hrun
      cases hrun
      rw [run_bindParams hσ hf₂, show (p.bind t).bind t = p.bind t from rfl]
      cases hnew : f.has (p.bind t).binding.name with
      | true =>
        rw [CheckState.declared_old hnew] at hrest
        rw [CheckState.declared_old ((hhas _).trans hnew)]
        obtain ⟨ps, hps⟩ := @run_bindParams_ended fr { st with stop := _ } params types _ rfl
        cases hps.symm.trans hrest
        obtain ⟨qs, hqs⟩ := @run_bindParams_ended fr₂ { σ with stop := _ } rest types _ rfl
        rw [hqs]
        exact ⟨_, _, rfl, rfl, rfl, .refl hs.store, fun h => by cases h⟩
      | false =>
        have hnew₂ := (hhas _).trans hnew
        rw [CheckState.declared_new hnew] at hrest
        rw [CheckState.declared_new hnew₂]
        have hlt₂ : fr₂ < σ.store.frames.size := (List.getElem?_eq_some_iff.mp hf₂).1
        have hyields :
            (declare fr₂ (p.bind t).binding).Yields σ.store () (σ.store.addVariable fr₂ f₂ (p.bind t).binding) := by
          rw [Yields, run_declare hf₂, if_neg (by simp [hnew₂])]
        have hdeclare : Moves L fr₂ [] _ σ.store _ _ _ :=
          moves_declare hs.store hlt₂ (hp.declares (htypes t List.mem_cons_self))
        obtain ⟨hmoves, hadds, -⟩ := Ends.yielded hdeclare hyields
        rw [hp.bare] at hadds
        have hhas' : ∀ name, Frame.has { f₂ with values := f₂.values ++ [(p.binding.name, (p.bind t).binding)] } name =
            Frame.has { f with values := f.values ++ [(p.binding.name, (p.bind t).binding)] } name := fun name =>
          Bool.eq_iff_iff.mpr (by rw [Frame.has_addValue, Frame.has_addValue, hhas])
        obtain ⟨ps, σ', hrun', hstop, hloops, hmoves', hadds'⟩ :=
          @ih { st with store := st.store.addVariable fr f (p.bind t).binding } st₁
            { σ with store := σ.store.addVariable fr₂ f₂ (p.bind t).binding } _ _ rest types hopen hσ
            ⟨hmoves.sound, hmoves.toExtends.idle hs.idle, hs.faultless⟩
            ((Store.frame?_addVariable hf fr).trans (if_pos rfl))
              ((Store.frame?_addVariable hf₂ fr₂).trans (if_pos rfl))
            hhas' (fun q hq => hparams q (List.mem_cons_of_mem _ hq))
            (fun u hu => hmoves.toGrowsTo.settled (htypes u (List.mem_cons_of_mem _ hu))) (Nat.succ.inj hlen) hrest
        rw [hrun']
        exact ⟨_, σ', rfl, hstop, hloops, hmoves.trans hmoves', fun h => hadds.trans (hadds' h)⟩

end

/-! ### Functions that are passed -/

section

variable {L : Listing} {functions : List Variable} {uses : List Use} {scope : Scope} {c : Context} {fr : FrameId}
  {st st' : CheckState} {Q : Store → Prop}

theorem conclude_grows {info i : Info} {rule : Action Info} (h : Repeats Q st.store rule rule)
    (hrun : (conclude info rule).run st = (i, st')) (hfault : ∀ f, st'.stop ≠ some (.fault f)) :
    st.store.GrowsTo st'.store := by
  obtain ⟨o, _, hattempt, hreturn⟩ := run_bind_inv hrun
  cases hreturn
  have hrepeats : Repeats Q st.store (do settle (← rule)) (do settle (← rule)) := h.bind fun _ _ _ => repeats_settle
  cases hopen : st.stop with
  | some why =>
    cases (run_attempt_ended hopen).symm.trans hattempt
    exact .refl _
  | none =>
  rw [run_attempt hopen] at hattempt
  rcases ha : (do settle (← rule) : Action Info).run.run st.store with ⟨why | x, s⟩
  · rw [ha] at hattempt
    cases hattempt
    exact (hrepeats _ _ ha fun f hf => hfault f (congrArg some (Except.error.inj hf))).1
  · rw [ha] at hattempt
    cases hattempt
    exact (hrepeats _ _ ha (by simp)).1

theorem repeats_functionRule {s : Store} {info : Info} {body : Block Expr} {entry : Entry} :
    Repeats Q s (functionRule info body entry) (functionRule info body entry) :=
  repeats_expectType.bind fun _ _ _ => repeats_pure

/-- A function that is entered has a type. -/
private theorem Prepared.resolved {own : FrameId} {header : Header} {body : Block Expr} {entry : Entry}
    (hr : Prepared L functions (Expr.mentionsBlock body) st) (hshows : st.store.Shows own scope)
    (hlisted : L.Lists header.mentions) (hregistered : (st.store.function header.span).variableType.isSome = true)
    (henter : (attempt (enterFunction own header)).run st = (some entry, st')) : st'.store.Resolved header.span := by
  obtain ⟨hprototype, hmentions⟩ := Listing.lists_cons.mp hlisted
  obtain ⟨s₁, f, hsig, -, -, -, hstore⟩ := enterFunction_inv (attempt_gives henter).yields
  obtain ⟨-, -, hsig⟩ := Ends.yielded
    (ends_signature hr.sound.store hr.sound.idle hshows.lt_size hprototype hmentions hregistered) hsig
  rw [hstore]
  exact Option.isSome_iff_exists.mpr ⟨_, hsig⟩

/-- The functions that a statement declares have their types behind it. -/
private theorem Visit.Sound.resolved_expr {e e' : Expr} (hs : Visit.Sound L functions uses scope ⟨c, fr, .expr e, st⟩)
    (hopen : st.stop = none) (hrun : (Check.expr c fr e).run st = (e', st')) (hstop : st'.stop = none) :
    ∀ x ∈ e.declared, x.kind.isFunction = true → st'.store.Resolved x.span := by
  intro x hx hfunction
  obtain ⟨b, hf⟩ := hs.fresh
  cases hf with
  | letBinding =>
    obtain rfl := List.mem_singleton.mp hx
    cases hfunction
  | @function span header body hexported hparams hbody =>
    obtain rfl := List.mem_singleton.mp hx
    cases Expr.walked rfl hrun hstop with
    | @function _ i _ _ body' own entry params st₁ st₂ st₃ st₄ _ hnested henter hbind hwalk hi =>
      obtain ⟨hr, hshows, hlisted, hregistered⟩ := hs.ready.nested hexported hnested
      have hresolved := hr.resolved hshows hlisted hregistered henter
      obtain ⟨s₁, f, -, -, hframe, hentry, hstore⟩ := enterFunction_inv (attempt_gives henter).yields
      have hg₃ : st₂.store.GrowsTo st₃.store := by
        refine bindParams_grows (f := { outer := own :: f.outer }) ?_ hbind
        rw [hstore, hentry, Store.frame?_addFrame, if_pos rfl]
      obtain ⟨_, hs'⟩ := (Visit.Step.nested hopen rfl hnested (.body henter hbind)).sound hs
      have hg₄ : st₃.store.GrowsTo st₄.store := by
        have hgo := hs'.goes.1.grows
        simpa only [Visit.after, hwalk] using hgo
      have hg' : { st₄ with loops := st₃.loops }.store.GrowsTo st'.store :=
        conclude_grows (Q := fun _ => True) repeats_functionRule hi (by simp [hstop])
      exact ((hresolved.grow hg₃).grow hg₄).grow hg'
  | _ => cases hx

/-- The functions that a part declares have their types behind it. -/
private theorem Visit.Sound.resolved {v : Visit} (hs : v.Sound L functions uses scope) (hstop : v.after.stop = none) :
    ∀ x ∈ v.part.declared, x.kind.isFunction = true → v.after.store.Resolved x.span := by
  obtain ⟨c, fr, part, st⟩ := v
  cases part with
  | expr e => exact hs.resolved_expr ((steady_expr e).opened rfl hstop) rfl hstop
  | exprs es =>
    intro x hx hfunction
    induction es generalizing st scope with
    | nil => cases hx
    | cons e rest ih =>
      rcases hhead : (Check.expr c fr e).run st with ⟨e', st₁⟩
      have hafter : (⟨c, fr, .exprs (e :: rest), st⟩ : Visit).after = (⟨c, fr, .exprs rest, st₁⟩ : Visit).after := by
        change ((Check.exprs c fr (e :: rest)).run st).2 = ((Check.exprs c fr rest).run st₁).2
        rw [Check.exprs, run_bind_of hhead]
        rfl
      rw [hafter] at hstop ⊢
      obtain ⟨_, hs₁⟩ := Visit.Step.head.sound hs
      obtain ⟨_, hs₂⟩ := (Visit.Step.tail hhead).sound hs
      have hopen₁ : st₁.stop = none := (steady_exprs rest).opened rfl hstop
      rcases List.mem_append.mp hx with hx | hx
      · exact (hs₁.resolved_expr ((steady_expr e).opened hhead hopen₁) hhead hopen₁ x hx hfunction).grow
          hs₂.goes.1.grows
      · exact ih st₁ hs₂ hstop hx
  | _ => exact fun x hx => by cases hx

theorem Visit.Sound.along {v : Visit} (hs : v.Sound L functions uses scope) (hstop : v.after.stop = none) :
    v.state.Along v.frame v.after :=
  .of_goes hs.goes.1 hstop (hs.resolved hstop) v.loops

end

end RainCheck
