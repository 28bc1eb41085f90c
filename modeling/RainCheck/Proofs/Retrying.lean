import RainCheck.Proofs.Passing

/-!
# Walking through a refused tree again

A second walk through the tree that a refused walk has left skips what has a type and comes to the same problem
(`Visit.retries`), with one exception: a name that was declared twice in a block may not be declared there anymore,
since the declaration before it is skipped.

The proof follows the first walk to the part it has failed in, one step of a visit at a time.
-/

namespace RainCheck

open Check RainCheck.Action

/-! ### Visits that are made again -/

/-- A second visit to what a visit has left: it knows at least as much, and sees no other local names. -/
structure Visit.Resumes (L : Listing) (functions : List Variable) (v w : Visit) : Prop where
  context : w.context = v.context
  part : w.part = v.result
  opened : w.state.stop = none
  sound : w.state.Sound L
  grows : v.after.store.GrowsTo w.state.store
  module : w.state.store.Shows FrameId.module [functions]
  shows : ∃ σ, w.state.store.Shows w.frame σ
  inner : w.state.store.Inner w.frame fun _ => True
  sees : ∀ name, w.state.store.Sees w.frame name → v.state.store.Sees v.frame name
  loops : w.state.loops.isEmpty = v.state.loops.isEmpty

/-- A visit is refused for a reason, and opens frames only. -/
structure Visit.Refuses (L : Listing) (w : Visit) (d : Diagnostic) : Prop where
  stop : w.after.stop = some (.refused d)
  moves : w.state.store.Moves L w.frame [] w.after.store

/-- A visit is refused for another reason than a name that it declares twice. -/
structure Visit.Fails (L : Listing) (functions : List Variable) (v : Visit) (d : Diagnostic) : Prop where
  sound : ∃ uses σ, v.Sound L functions uses σ
  opened : v.state.stop = none
  stop : v.after.stop = some (.refused d)
  inner : v.state.store.Inner v.frame v.state.store.Resolved
  once : ∀ n ∈ v.part.nodes, ∀ x ∈ n.declared, d ≠ ⟨x.span, .duplicateDeclaration x.name⟩

/-- A second visit to what a refused visit has left is refused for the same reason. -/
def Visit.Retries (L : Listing) (functions : List Variable) (v : Visit) : Prop :=
  ∀ d w, v.Fails L functions d → v.Resumes L functions w → w.Refuses L d

/-- A frame of a function, as a second walk sees it. -/
def Store.Here (fr : FrameId) (s : Store) : Prop := s.Inner fr (fun _ => True) ∧ s.Within FrameId.module []

/-- What a visit leaves, and the state it ends in. -/
def Visit.Gives (v : Visit) (part : Part) (st : CheckState) : Prop := v.result = part ∧ v.after = st

/-- A part that is passed on the way to a problem. -/
structure CheckState.Passes (L : Listing) (fr : FrameId) (st st' : CheckState) (p : Part) : Prop where
  alive : st'.stop = none
  along : st.Along fr st'
  sound : st'.Sound L
  typed : p.Typed st'.store

section

variable {L : Listing} {functions : List Variable} {v v' w w' : Visit} {d : Diagnostic} {why : Stop} {p : Part}
  {st : CheckState}

theorem Visit.Resumes.here (hw : v.Resumes L functions w) : w.state.store.Here w.frame :=
  ⟨hw.inner, hw.module.within_module hw.sound.store.frames⟩

private theorem Visit.Fails.step (hv : v.Fails L functions d) (hstep : v.Step v') (hopen : v'.state.stop = none)
    (hstop : v'.after.stop = some why) (hinner : v'.state.store.Inner v'.frame v'.state.store.Resolved) :
    v'.Fails L functions d := by
  obtain ⟨uses, σ, hs⟩ := hv.sound
  obtain ⟨σ', hs'⟩ := hstep.sound hs
  refine ⟨⟨uses, σ', hs'⟩, hopen, ?_, hinner, fun n hn => hv.once n (hstep.nodes n hn)⟩
  obtain ⟨hwhy, -⟩ := hstep.ended why hstop
  rw [hstop, ← hwhy, hv.stop]

/-- The second visit gets to the part in which the first one has failed. -/
theorem Visit.Retries.step (h : v'.Retries L functions) (hv : v.Fails L functions d) (hstep : v.Step v')
    (hopen : v'.state.stop = none) (hstop : v'.after.stop = some why)
    (hinner : v'.state.store.Inner v'.frame v'.state.store.Resolved) (hw' : v'.Resumes L functions w')
    (hstep₂ : w.Step w')
    (hmoves : w'.state.store.Moves L w'.frame [] w'.after.store → w.state.store.Moves L w.frame [] w'.after.store) :
    w.Refuses L d := by
  have hrefuses := h d w' (hv.step hstep hopen hstop hinner) hw'
  obtain ⟨hstop₂, hstore₂⟩ := hstep₂.ended _ hrefuses.stop
  exact ⟨hstop₂, hstore₂ ▸ hmoves hrefuses.moves⟩

/-- A visit that comes to its end is passed by. -/
theorem Visit.Fails.passed (hv : v.Fails L functions d) (hstep : v.Step v') (hgives : v'.Gives p st)
    (hstop : st.stop = none) : v'.state.Passes L v'.frame st p := by
  obtain ⟨uses, σ, hs⟩ := hv.sound
  obtain ⟨σ', hs'⟩ := hstep.sound hs
  obtain ⟨hresult, hafter⟩ := hgives
  rw [← hafter] at hstop ⊢
  exact ⟨hstop, hs'.along hstop, hs'.goes.1.sound hs'.ready.sound, hresult ▸ hs'.goes.2 hstop⟩

theorem Visit.Fails.grows (hv : v.Fails L functions d) (hstep : v.Step v') (hgives : v'.Gives p st) :
    v'.state.store.GrowsTo st.store := by
  obtain ⟨uses, σ, hs⟩ := hv.sound
  obtain ⟨σ', hs'⟩ := hstep.sound hs
  exact hgives.2 ▸ hs'.goes.1.grows

/--
The problem is in a part, or the part is passed by.  The second visit may have entered a loop, as the first one has.
-/
theorem Visit.Fails.inside {σ : CheckState} (hv : v.Fails L functions d) (hw : v.Resumes L functions w)
    (ih : ∀ v', v.Step v' → v'.Retries L functions) (hstep : v.Step v') (hframe : v'.frame = v.frame)
    (hcontext : v'.context = v.context) (hgrows : v.state.store.GrowsTo v'.state.store)
    (hinner : v'.state.store.Inner v.frame v'.state.store.Resolved) (hopen : v'.state.stop = none)
    (hgives : v'.Gives p st) (hstore : σ.store = w.state.store) (hσ : σ.stop = none)
    (hloops : σ.loops.isEmpty = v'.state.loops.isEmpty) (hstep₂ : w.Step ⟨w.context, w.frame, p, σ⟩) :
    w.Refuses L d ∨ v'.state.Passes L v.frame st p := by
  cases hstop : st.stop with
  | none => exact .inr (hframe ▸ hv.passed hstep hgives hstop)
  | some why =>
    obtain ⟨hresult, hafter⟩ := hgives
    rw [← hafter] at hstop
    refine .inl ((ih v' hstep).step hv hstep hopen hstop (hframe ▸ hinner) ?_ hstep₂ fun h => hstore ▸ h)
    have hg : v'.after.store.GrowsTo w.state.store := (hstep.ended why hstop).2 ▸ hw.grows
    have hs : σ.Sound L := ⟨hstore ▸ hw.sound.store, hstore ▸ hw.sound.idle, by simp [hσ]⟩
    refine ⟨hw.context.trans hcontext.symm, hresult.symm, hσ, hs, hstore ▸ hg, hstore ▸ hw.module, hstore ▸ hw.shows,
      hstore ▸ hw.inner, fun name hname => ?_, hloops⟩
    rw [hframe]
    exact (hw.sees name (hstore ▸ hname)).grow hgrows

/-- The problem is in a part, or the part is passed by. -/
theorem Visit.Fails.child (hv : v.Fails L functions d) (hw : v.Resumes L functions w)
    (ih : ∀ v', v.Step v' → v'.Retries L functions) (hstep : v.Step v') (hframe : v'.frame = v.frame)
    (hcontext : v'.context = v.context) (halong : v.state.Along v.frame v'.state) (hopen : v'.state.stop = none)
    (hgives : v'.Gives p st) (hstep₂ : w.Step ⟨w.context, w.frame, p, w.state⟩) :
    w.Refuses L d ∨ v.state.Passes L v.frame st p := by
  rcases hv.inside hw ih hstep hframe hcontext halong.grows (halong.inner hv.inner) hopen hgives rfl hw.opened
    (hw.loops.trans halong.loops.symm) hstep₂ with h | h
  · exact .inl h
  · exact .inr ⟨h.alive, halong.trans h.along, h.sound, h.typed⟩

private theorem Visit.Fails.whole (hv : v.Fails L functions d) : v.state.store.GrowsTo v.after.store := by
  obtain ⟨uses, σ, hs⟩ := hv.sound
  exact hs.goes.1.grows

/-- A visit whose own rule refuses it. -/
theorem Visit.refuses_of_same (hs : w.state.Sound L) (hstop : w.after.stop = some (.refused d))
    (hstore : w.after.store = w.state.store) : w.Refuses L d := by
  refine ⟨hstop, ?_⟩
  rw [hstore]
  exact .refl hs.store

theorem Visit.refuses_of_after (hs : w.state.Sound L) (h : w.after = { w.state with stop := some (.refused d) }) :
    w.Refuses L d :=
  refuses_of_same hs (by rw [h]) (by rw [h])

end

section

variable {L : Listing} {functions : List Variable} {c : Context} {fr fr₂ : FrameId} {st st' st₁ st₂ σ : CheckState}
  {d : Diagnostic}

theorem gives_expr {e e' : Expr} (h : (Check.expr c fr e).run st = (e', st')) :
    (⟨c, fr, .expr e, st⟩ : Visit).Gives (.expr e') st' := by
  simp [Visit.Gives, Visit.result, Visit.after, h]

theorem gives_option {e e' : Option Expr} (h : (Check.option c fr e).run st = (e', st')) :
    (⟨c, fr, .option e, st⟩ : Visit).Gives (.option e') st' := by
  simp [Visit.Gives, Visit.result, Visit.after, h]

theorem gives_exprs {es es' : List Expr} (h : (Check.exprs c fr es).run st = (es', st')) :
    (⟨c, fr, .exprs es, st⟩ : Visit).Gives (.exprs es') st' := by
  simp [Visit.Gives, Visit.result, Visit.after, h]

private theorem gives_fields {owner : String} {declared : List (String × TypeId)} {seen : List String}
    {inits inits' : List (FieldInit Expr)}
    (h : (Check.fields c fr owner declared seen inits).run st = (inits', st')) :
    (⟨c, fr, .fields owner declared seen inits, st⟩ : Visit).Gives (.fields owner declared seen inits') st' := by
  simp [Visit.Gives, Visit.result, Visit.after, h]

theorem gives_block {b b' : Block Expr} (h : (Check.block c fr b).run st = (b', st')) :
    (⟨c, fr, .block b, st⟩ : Visit).Gives (.block b') st' := by
  simp [Visit.Gives, Visit.result, Visit.after, h]

/-- Names of types mean the same in both walks. -/
theorem Store.Sound.sameTypes {s : Store} {known : Span → Prop} (hs : s.Sound L)
    (hmodule : s.Within FrameId.module []) (hinner : s.Inner fr known) : SameTypes (Store.Here fr₂) s fr fr₂ := by
  rintro s₂ name hg ⟨hinner₂, hmodule₂⟩
  rw [hinner₂.lookupType hmodule₂, hinner.lookupType hmodule]
  exact hg.lookupType hs.frames hs.frames.module_lt name

/-- A refused expression has no type yet. -/
theorem retries_expr {e : Expr}
    (h : ∀ ⦃d : Diagnostic⦄ ⦃e' : Expr⦄ ⦃st' : CheckState⦄ ⦃fr₂ : FrameId⦄ ⦃σ : CheckState⦄ ⦃b : Bool⦄,
      (Check.expr c fr e).run st = (e', st') → e.Fresh b → st'.stop = some (.refused d) →
      Visit.Fails L functions ⟨c, fr, .expr e, st⟩ d →
      Visit.Resumes L functions ⟨c, fr, .expr e, st⟩ ⟨c, fr₂, .expr e', σ⟩ → st'.store.GrowsTo σ.store →
      Visit.Refuses L ⟨c, fr₂, .expr e', σ⟩ d) :
    Visit.Retries L functions ⟨c, fr, .expr e, st⟩ := by
  rintro d ⟨c₂, fr₂, part, σ⟩ hv hw
  obtain ⟨uses, scope, hs⟩ := hv.sound
  obtain ⟨b, hf⟩ := hs.fresh
  rcases hrun : (Check.expr c fr e).run st with ⟨e', st'⟩
  obtain ⟨hresult, hafter⟩ := gives_expr hrun
  obtain rfl : c₂ = c := hw.context
  obtain rfl : part = .expr e' := hw.part.trans hresult
  exact h hrun hf (hafter ▸ hv.stop) hv hw (hafter ▸ hw.grows)

/-- The rule of an expression refuses it again, when all its parts are passed. -/
theorem Visit.Resumes.refuses {v : Visit} {e : Expr} {m : Info → Expr} {info i : Info} {rule rule₂ : Action Info}
    (hw : v.Resumes L functions ⟨c, fr₂, .expr e, σ⟩) (hrepeats : Repeats (Store.Here fr₂) st₁.store rule rule₂)
    (hopen : st₁.stop = none) (hi : (conclude info rule).run st₁ = (i, st')) (hstop : st'.stop = some (.refused d))
    (hg : st'.store.GrowsTo σ.store)
    (hrun : (Check.expr c fr₂ e).run σ = (do return m (← conclude info rule₂)).run σ) :
    Visit.Refuses L ⟨c, fr₂, .expr e, σ⟩ d := by
  have hagain := conclude_again hrepeats hopen hi (by simp [hstop]) hw.opened hg hw.here
  refine Visit.refuses_of_after hw.sound ?_
  change ((Check.expr c fr₂ e).run σ).2 = _
  rw [hrun, run_bind_of hagain, hstop]
  rfl

/-- An action that was not refused is repeated without a trace. -/
private theorem Visit.Resumes.attempt {α : Type} {v : Visit} {p : Part} {a b : Action α} {x : α}
    (hw : v.Resumes L functions ⟨c, fr₂, p, σ⟩) (hg : st'.store.GrowsTo σ.store)
    (hrepeats : Repeats (Store.Here fr₂) st.store a b) (hopen : st.stop = none)
    (hrun : (Check.attempt a).run st = (some x, st')) : (Check.attempt b).run σ = (some x, σ) := by
  have halive := attempt_alive hrun
  have hagain := attempt_again hrepeats hopen hrun (by simp [halive]) hw.opened hg hw.here
  rwa [halive, CheckState.with_stop hw.opened] at hagain

/-- An action that keeps the frames. -/
private theorem CheckState.Along.of_keeps {α : Type} {a : Action α} {P : α → Store → Prop}
    {R : Diagnostic → Prop} {x : α}
    (h : Keeps L st.store a P R) (hgives : a.Gives st x st') : st.Along fr st' := by
  obtain ⟨-, hlearns, -⟩ := Ends.yielded h hgives.yields
  refine ⟨hlearns.toGrowsTo, fun hinner => ?_, by rw [hgives.loops]⟩
  exact (hinner.mono fun _ => .grow hlearns.toGrowsTo).declare hlearns.toGrowsTo (hlearns.leaves fr) (hlearns.adds fr)
    (by simp)

/-! ### Expressions -/

/-- A constant is not refused. -/
theorem retries_constant {e : Expr} {i : Info} {m : Info → Expr}
    (hrun : st.stop = none → e.info.type = none →
      (Check.expr c fr e).run st = (do return m (← conclude e.info (pure i))).run st) :
    Visit.Retries L functions ⟨c, fr, .expr e, st⟩ := by
  refine retries_expr fun d e' st' fr₂ σ b hrun' hf hstop hv hw hg => ?_
  have hopen : st.stop = none := hv.opened
  obtain ⟨_, _, hi, hreturn⟩ := run_bind_inv ((hrun hopen hf.untyped).symm.trans hrun')
  cases hreturn
  exact absurd hstop (conclude_return hopen hi)

theorem retries_member {info : Info} {base : Expr} {name : String} {nameSpan : Span} {index : Nat}
    (ih : ∀ v', Visit.Step ⟨c, fr, .expr (.member info base name nameSpan index), st⟩ v' → v'.Retries L functions) :
    Visit.Retries L functions ⟨c, fr, .expr (.member info base name nameSpan index), st⟩ := by
  refine retries_expr fun d e' st' fr₂ σ b hrun hf hstop hv hw hg => ?_
  have hopen : st.stop = none := hv.opened
  have huntyped : info.type = none := hf.untyped
  rw [Check.expr, run_open hopen (by exact skip_untyped huntyped)] at hrun
  obtain ⟨base', st₁, hbase, hrun⟩ := run_bind_inv hrun
  obtain ⟨o, st₂, hrule, hrun⟩ := run_bind_inv hrun
  cases o with
  | some found =>
    obtain ⟨i, _, hi, hreturn⟩ := run_bind_inv hrun
    cases hreturn
    exact absurd hstop (conclude_return (attempt_alive hrule) hi)
  | none =>
    cases hrun
    rcases hv.child hw ih (.memberBase hopen huntyped) rfl rfl (.refl st) hopen (gives_expr hbase)
      (.memberBase hw.opened huntyped) with h | h₁
    · exact h
    obtain ⟨u, hu⟩ := h₁.typed
    have hagain := attempt_again (repeats_memberRule h₁.sound.store h₁.sound.idle hu) h₁.alive hrule (by simp [hstop])
      hw.opened hg hw.here
    refine Visit.refuses_of_after hw.sound ?_
    change ((Check.expr c fr₂ (.member info base' name nameSpan index)).run σ).2 = _
    rw [Check.expr, run_open hw.opened (by exact skip_untyped huntyped), run_bind_of (run_typed h₁.typed),
      run_bind_of hagain, hstop]
    rfl

theorem retries_call {info : Info} {callee : Expr} {args : List Expr}
    (ih : ∀ v', Visit.Step ⟨c, fr, .expr (.call info callee args), st⟩ v' → v'.Retries L functions) :
    Visit.Retries L functions ⟨c, fr, .expr (.call info callee args), st⟩ := by
  refine retries_expr fun d e' st' fr₂ σ b hrun hf hstop hv hw hg => ?_
  have hopen : st.stop = none := hv.opened
  have huntyped : info.type = none := hf.untyped
  rw [Check.expr, run_open hopen (by exact skip_untyped huntyped)] at hrun
  obtain ⟨callee', st₁, hcallee, hrun⟩ := run_bind_inv hrun
  obtain ⟨args', st₂, hargs, hrun⟩ := run_bind_inv hrun
  obtain ⟨i, _, hi, hreturn⟩ := run_bind_inv hrun
  cases hreturn
  obtain rfl := conclude_stopped hi hstop
  rcases hv.child hw ih (.callee hopen huntyped) rfl rfl (.refl st) hopen (gives_expr hcallee)
    (.callee hw.opened huntyped) with h | h₁
  · exact h
  rcases hv.child hw ih (.arguments hopen huntyped hcallee) rfl rfl h₁.along h₁.alive (gives_exprs hargs)
    (.arguments hw.opened huntyped (run_typed h₁.typed)) with h | h₂
  · exact h
  refine hw.refuses (m := fun i => .call i callee' args') repeats_callRule h₂.alive hi hstop hg ?_
  rw [Check.expr, run_open hw.opened (by exact skip_untyped huntyped), run_bind_of (run_typed h₁.typed),
    run_bind_of (run_typed_all h₂.typed)]

theorem retries_unary {info : Info} {op : UnaryOp} {operand : Expr}
    (ih : ∀ v', Visit.Step ⟨c, fr, .expr (.unary info op operand), st⟩ v' → v'.Retries L functions) :
    Visit.Retries L functions ⟨c, fr, .expr (.unary info op operand), st⟩ := by
  refine retries_expr fun d e' st' fr₂ σ b hrun hf hstop hv hw hg => ?_
  have hopen : st.stop = none := hv.opened
  have huntyped : info.type = none := hf.untyped
  rw [Check.expr, run_open hopen (by exact skip_untyped huntyped)] at hrun
  obtain ⟨operand', st₁, hoperand, hrun⟩ := run_bind_inv hrun
  obtain ⟨i, _, hi, hreturn⟩ := run_bind_inv hrun
  cases hreturn
  obtain rfl := conclude_stopped hi hstop
  rcases hv.child hw ih (.operand hopen huntyped) rfl rfl (.refl st) hopen (gives_expr hoperand)
    (.operand hw.opened huntyped) with h | h₁
  · exact h
  refine hw.refuses (m := fun i => .unary i op operand') repeats_unaryRule h₁.alive hi hstop hg ?_
  rw [Check.expr, run_open hw.opened (by exact skip_untyped huntyped), run_bind_of (run_typed h₁.typed)]

theorem retries_binary {info : Info} {op : BinaryOp} {lhs rhs : Expr}
    (ih : ∀ v', Visit.Step ⟨c, fr, .expr (.binary info op lhs rhs), st⟩ v' → v'.Retries L functions) :
    Visit.Retries L functions ⟨c, fr, .expr (.binary info op lhs rhs), st⟩ := by
  refine retries_expr fun d e' st' fr₂ σ b hrun hf hstop hv hw hg => ?_
  have hopen : st.stop = none := hv.opened
  have huntyped : info.type = none := hf.untyped
  rw [Check.expr, run_open hopen (by exact skip_untyped huntyped)] at hrun
  obtain ⟨lhs', st₁, hlhs, hrun⟩ := run_bind_inv hrun
  obtain ⟨rhs', st₂, hrhs, hrun⟩ := run_bind_inv hrun
  obtain ⟨i, _, hi, hreturn⟩ := run_bind_inv hrun
  cases hreturn
  obtain rfl := conclude_stopped hi hstop
  rcases hv.child hw ih (.left hopen huntyped) rfl rfl (.refl st) hopen (gives_expr hlhs)
    (.left hw.opened huntyped) with h | h₁
  · exact h
  rcases hv.child hw ih (.right hopen huntyped hlhs) rfl rfl h₁.along h₁.alive (gives_expr hrhs)
    (.right hw.opened huntyped (run_typed h₁.typed)) with h | h₂
  · exact h
  refine hw.refuses (m := fun i => .binary i op lhs' rhs') repeats_binaryRule h₂.alive hi hstop hg ?_
  rw [Check.expr, run_open hw.opened (by exact skip_untyped huntyped), run_bind_of (run_typed h₁.typed),
    run_bind_of (run_typed h₂.typed)]

theorem retries_assignment {info : Info} {target source : Expr}
    (ih : ∀ v', Visit.Step ⟨c, fr, .expr (.assignment info target source), st⟩ v' → v'.Retries L functions) :
    Visit.Retries L functions ⟨c, fr, .expr (.assignment info target source), st⟩ := by
  refine retries_expr fun d e' st' fr₂ σ b hrun hf hstop hv hw hg => ?_
  have hopen : st.stop = none := hv.opened
  have huntyped : info.type = none := hf.untyped
  rw [Check.expr, run_open hopen (by exact skip_untyped huntyped)] at hrun
  obtain ⟨target', st₁, htarget, hrun⟩ := run_bind_inv hrun
  obtain ⟨source', st₂, hsource, hrun⟩ := run_bind_inv hrun
  obtain ⟨i, _, hi, hreturn⟩ := run_bind_inv hrun
  cases hreturn
  obtain rfl := conclude_stopped hi hstop
  rcases hv.child hw ih (.target hopen huntyped) rfl rfl (.refl st) hopen (gives_expr htarget)
    (.target hw.opened huntyped) with h | h₁
  · exact h
  rcases hv.child hw ih (.source hopen huntyped htarget) rfl rfl h₁.along h₁.alive (gives_expr hsource)
    (.source hw.opened huntyped (run_typed h₁.typed)) with h | h₂
  · exact h
  refine hw.refuses (m := fun i => .assignment i target' source') repeats_assignmentRule h₂.alive hi hstop hg ?_
  rw [Check.expr, run_open hw.opened (by exact skip_untyped huntyped), run_bind_of (run_typed h₁.typed),
    run_bind_of (run_typed h₂.typed)]

/-- An action that only reads leaves the store as it is. -/
private theorem attempt_reads {α : Type} {a : Action α} {x : α} (ha : a.Reads)
    (hrun : (attempt a).run st = (some x, st')) :
    st' = st := by
  have hgives := attempt_gives hrun
  have hstore : st'.store = st.store := by
    have h := ha st.store
    rw [show a.run.run st.store = (.ok x, st'.store) from hgives.yields] at h
    exact h
  obtain ⟨s, loops, stop⟩ := st'
  obtain ⟨s₀, loops₀, stop₀⟩ := st
  cases hstore
  cases hgives.loops
  cases hgives.opened
  cases hgives.alive
  rfl

theorem retries_builtinCall {info : Info} {name : String} {args : List Expr}
    (ih : ∀ v', Visit.Step ⟨c, fr, .expr (.builtinCall info name args), st⟩ v' → v'.Retries L functions) :
    Visit.Retries L functions ⟨c, fr, .expr (.builtinCall info name args), st⟩ := by
  refine retries_expr fun d e' st' fr₂ σ b hrun hf hstop hv hw hg => ?_
  have hopen : st.stop = none := hv.opened
  have huntyped : info.type = none := hf.untyped
  rw [Check.expr, run_open hopen (by exact skip_untyped huntyped)] at hrun
  obtain ⟨o, st₁, hfind, hrun⟩ := run_bind_inv hrun
  cases o with
  | none =>
    cases hrun
    have hagain :=
      attempt_again (Q := Store.Here fr₂) repeats_findBuiltin hopen hfind (by simp [hstop]) hw.opened hg hw.here
    refine Visit.refuses_of_after hw.sound ?_
    change ((Check.expr c fr₂ (.builtinCall info name args)).run σ).2 = _
    rw [Check.expr, run_open hw.opened (by exact skip_untyped huntyped), run_bind_of hagain, hstop]
    rfl
  | some found =>
    obtain ⟨args', st₂, hargs, hrun⟩ := run_bind_inv hrun
    obtain ⟨i, _, hi, hreturn⟩ := run_bind_inv hrun
    cases hreturn
    obtain rfl := conclude_stopped hi hstop
    obtain rfl := attempt_reads reads_findBuiltin hfind
    have hagain := hw.attempt (hv.whole.trans hw.grows) repeats_findBuiltin hopen hfind
    rcases hv.child hw ih (.builtinArguments hopen huntyped hfind) rfl rfl (.refl _) hopen (gives_exprs hargs)
      (.builtinArguments hw.opened huntyped hagain) with h | h₂
    · exact h
    refine hw.refuses (m := fun i => .builtinCall i name args') repeats_builtinRule h₂.alive hi hstop hg ?_
    rw [Check.expr, run_open hw.opened (by exact skip_untyped huntyped), run_bind_of hagain]
    dsimp only
    rw [run_bind_of (run_typed_all h₂.typed)]

/-! ### Struct literals -/

/-- A part that has to be of a type is passed, or refused again. -/
theorem Visit.Resumes.expect {α β : Type} {v : Visit} {p : Part} {e : Expr} {t : TypeId} {a : Check α}
    {b : Check β} {x : α} (hw : v.Resumes L functions ⟨c, fr₂, p, σ⟩) (hopen : st.stop = none)
    (hexpect : (demand (expectExpr e t)).run st = ((), st₁)) (ha : Steady a) (hrun : a.run st₁ = (x, st'))
    (hstop : st'.stop = some (.refused d)) (hg : st₁.store.GrowsTo σ.store) (hb : Steady b)
    (hafter : Visit.after ⟨c, fr₂, p, σ⟩ = ((demand (expectExpr e t) >>= fun _ => b).run σ).2) :
    Visit.Refuses L ⟨c, fr₂, p, σ⟩ d ∨ st₁ = st ∧ (demand (expectExpr e t)).run σ = ((), σ) := by
  cases halive : st₁.stop with
  | none =>
    have hagain := demand_again (Q := Store.Here fr₂) (b := expectExpr e t) repeats_expectType hopen hexpect
      (by simp [halive]) hw.opened hg hw.here
    rw [halive, CheckState.with_stop hw.opened] at hagain
    obtain ⟨u, st₂, hattempt, hreturn⟩ := attempt_inv hexpect halive steady_pure
    cases hreturn
    exact .inr ⟨attempt_reads reads_expectType hattempt, hagain⟩
  | some why =>
    have hends := ha st₁ why halive
    rw [hrun] at hends
    obtain rfl : why = .refused d := Option.some.inj (hends.1.symm.trans hstop)
    have hagain := demand_again (Q := Store.Here fr₂) (b := expectExpr e t) repeats_expectType hopen hexpect
      (by simp [halive]) hw.opened hg hw.here
    rw [run_bind_of hagain] at hafter
    obtain ⟨hstop₂, hstore₂⟩ := hb { σ with stop := st₁.stop } _ halive
    exact .inl (Visit.refuses_of_same hw.sound (by rw [hafter, hstop₂]) (by rw [hafter, hstore₂]))

/-- Fields that are passed give the same again. -/
private theorem run_typed_fields {owner : String} {declared : List (String × TypeId)}
    {seen : List String} {uses : List Use}
    {scope : Scope} {inits inits' : List (FieldInit Expr)} {s : Store}
    (hs : Visit.Sound L functions uses scope ⟨c, fr, .fields owner declared seen inits, st⟩)
    (hrun : (Check.fields c fr owner declared seen inits).run st = (inits', st')) (hstop : st'.stop = none)
    (htyped : (Part.fields owner declared seen inits').Typed s) (hσ : σ.stop = none) (hg : st'.store.GrowsTo σ.store) :
    (Check.fields c fr₂ owner declared seen inits').run σ = (inits', σ) := by
  induction inits generalizing seen st inits' scope with
  | nil =>
    rw [Check.fields] at hrun
    cases hrun
    rw [Check.fields]
    rfl
  | cons init rest ih =>
    obtain ⟨name, span, value⟩ := init
    have hg₁ : st.store.GrowsTo st'.store := (gives_fields hrun).2 ▸ hs.goes.1.grows
    rw [Check.fields] at hrun
    obtain ⟨type, st₁, hfield, hrun⟩ := attempt_inv hrun hstop steady_pure
    obtain ⟨value', st₂, hvalue, hrun⟩ := run_bind_inv hrun
    obtain ⟨_, st₃, hfits, hrun⟩ := run_bind_inv hrun
    obtain ⟨rest', _, hrest, hreturn⟩ := run_bind_inv hrun
    cases hreturn
    obtain ⟨_, hs₃⟩ := (Visit.Step.laterFields hfield hvalue hfits).sound hs
    have hg₃ : st₃.store.GrowsTo st'.store := (gives_fields hrest).2 ▸ hs₃.goes.1.grows
    have halive₃ : st₃.stop = none := (steady_fields rest).opened hrest hstop
    have hgives₂ := demand_inv hfits halive₃
    obtain rfl := attempt_reads reads_field hfield
    have hfield₂ := attempt_again (Q := fun _ => True) repeats_fieldRule (attempt_gives hfield).opened hfield
      (by simp [attempt_alive hfield]) hσ (hg₁.trans hg) trivial
    have hfits₂ : (demand (expectExpr value' type)).run σ = _ :=
      demand_again (Q := fun _ => True) repeats_expectType hgives₂.opened hfits
        (by simp [halive₃]) hσ (hg₃.trans hg) trivial
    rw [attempt_alive hfield, CheckState.with_stop hσ] at hfield₂
    rw [halive₃, CheckState.with_stop hσ] at hfits₂
    have hvalue₂ : (Part.expr value').Typed s := htyped ⟨name, span, value'⟩ List.mem_cons_self
    rw [Check.fields, run_bind_of hfield₂]
    dsimp only
    rw [run_bind_of (run_typed hvalue₂), run_bind_of hfits₂,
      run_bind_of (ih hs₃ hrest fun f hf => htyped f (List.mem_cons_of_mem _ hf))]
    rfl

/-- A refused part of another kind. -/
theorem retries_fields {owner : String} {declared : List (String × TypeId)} {seen : List String}
    {inits : List (FieldInit Expr)}
    (ih : ∀ v', Visit.Step ⟨c, fr, .fields owner declared seen inits, st⟩ v' → v'.Retries L functions) :
    Visit.Retries L functions ⟨c, fr, .fields owner declared seen inits, st⟩ := by
  rintro d ⟨c₂, fr₂, part, σ⟩ hv hw
  rcases hrun : (Check.fields c fr owner declared seen inits).run st with ⟨inits', st'⟩
  have hgives := gives_fields hrun
  obtain rfl : c₂ = c := hw.context
  obtain rfl : part = .fields owner declared seen inits' := hw.part.trans hgives.1
  have hstop : st'.stop = some (.refused d) := hgives.2 ▸ hv.stop
  have hg : st'.store.GrowsTo σ.store := hgives.2 ▸ hw.grows
  have hopen : st.stop = none := hv.opened
  cases inits with
  | nil =>
    rw [Check.fields] at hrun
    cases hrun
    rw [hopen] at hstop
    cases hstop
  | cons init rest =>
    obtain ⟨name, span, value⟩ := init
    rw [Check.fields] at hrun
    obtain ⟨o, st₁, hfield, hrun⟩ := run_bind_inv hrun
    cases o with
    | none =>
      cases hrun
      -- the field itself was refused
      have hagain :=
        attempt_again (Q := Store.Here fr₂) repeats_fieldRule hopen hfield (by simp [hstop]) hw.opened hg hw.here
      refine Visit.refuses_of_after hw.sound ?_
      change ((Check.fields c₂ fr₂ owner declared seen (⟨name, span, value⟩ :: rest)).run σ).2 = _
      rw [Check.fields, run_bind_of hagain, hstop]
      rfl
    | some type =>
      obtain ⟨value', st₂, hvalue, hrun⟩ := run_bind_inv hrun
      obtain ⟨_, st₃, hfits, hrun⟩ := run_bind_inv hrun
      obtain ⟨rest', _, hrest, hreturn⟩ := run_bind_inv hrun
      cases hreturn
      obtain rfl := attempt_reads reads_field hfield
      have hagain := hw.attempt (hv.whole.trans hw.grows) repeats_fieldRule hopen hfield
      rcases hv.child hw ih (.fieldValue hfield) rfl rfl (.refl _) hopen (gives_expr hvalue)
        (.fieldValue hagain) with h | h₂
      · exact h
      have hlater := hv.grows (.laterFields hfield hvalue hfits) (gives_fields hrest)
      have hrun₂ : (Check.fields c₂ fr₂ owner declared seen (⟨name, span, value'⟩ :: rest')).run σ =
          (demand (expectExpr value' type) >>= fun _ => do
            return ⟨name, span, value'⟩ :: (← Check.fields c₂ fr₂ owner declared (name :: seen) rest')).run σ := by
        rw [Check.fields, run_bind_of hagain]
        dsimp only
        rw [run_bind_of (run_typed h₂.typed)]
      rcases hw.expect h₂.alive hfits (steady_fields rest) hrest hstop (hlater.trans hg)
        ((steady_fields rest').bind fun _ => steady_pure) (congrArg Prod.snd hrun₂) with h | ⟨rfl, hagain₃⟩
      · exact h
      rcases hv.child hw ih (.laterFields hfield hvalue hfits) rfl rfl h₂.along h₂.alive (gives_fields hrest)
        (.laterFields hagain (run_typed h₂.typed) hagain₃) with h | h₃
      · exact h
      exact absurd h₃.alive (by simp [hstop])

theorem retries_structLiteral {info : Info} {name : String} {inits : List (FieldInit Expr)}
    (ih : ∀ v', Visit.Step ⟨c, fr, .expr (.structLiteral info name inits), st⟩ v' → v'.Retries L functions) :
    Visit.Retries L functions ⟨c, fr, .expr (.structLiteral info name inits), st⟩ := by
  refine retries_expr fun d e' st' fr₂ σ b hrun hf hstop hv hw hg => ?_
  have hopen : st.stop = none := hv.opened
  have huntyped : info.type = none := hf.untyped
  obtain ⟨uses, scope, hs⟩ := hv.sound
  obtain ⟨hname, -⟩ := Listing.lists_cons.mp hs.ready.listed
  have hrepeats : Repeats (Store.Here fr₂) st.store (literalStruct fr info name) (literalStruct fr₂ info name) :=
    repeats_literalStruct hs.ready.sound.store hs.ready.sound.idle hs.ready.frame
      (hs.ready.sound.store.sameTypes (hs.ready.module.within_module hs.ready.sound.store.frames) hv.inner)
  rw [Check.expr, run_open hopen (by exact skip_untyped huntyped)] at hrun
  obtain ⟨o, st₁, hstruct, hrun⟩ := run_bind_inv hrun
  cases o with
  | none =>
    cases hrun
    have hagain := attempt_again hrepeats hopen hstruct (by simp [hstop]) hw.opened hg hw.here
    refine Visit.refuses_of_after hw.sound ?_
    change ((Check.expr c fr₂ (.structLiteral info name inits)).run σ).2 = _
    rw [Check.expr, run_open hw.opened (by exact skip_untyped huntyped), run_bind_of hagain, hstop]
    rfl
  | some found =>
    obtain ⟨type, owner, declared⟩ := found
    obtain ⟨inits', st₂, hinits, hrun⟩ := run_bind_inv hrun
    obtain ⟨i, _, hi, hreturn⟩ := run_bind_inv hrun
    cases hreturn
    obtain rfl := conclude_stopped hi hstop
    have hstep := @Visit.Step.literalFields c fr st st₁ i name owner type declared inits hopen huntyped hstruct
    have halong : st.Along fr st₁ := .of_keeps
      (keeps_literalStruct hs.ready.sound.store hs.ready.sound.idle hs.ready.frame hname) (attempt_gives hstruct)
    have hg₂ : st₂.store.GrowsTo st'.store :=
      conclude_grows (Q := fun _ => True) repeats_literalRule hi (by simp [hstop])
    have hagain := hw.attempt (((hv.grows hstep (gives_fields hinits)).trans hg₂).trans hg) hrepeats hopen hstruct
    rcases hv.child hw ih hstep rfl rfl halong (attempt_alive hstruct) (gives_fields hinits)
      (.literalFields hw.opened huntyped hagain) with h | h₂
    · exact h
    refine hw.refuses (m := fun i => .structLiteral i name inits') repeats_literalRule h₂.alive hi hstop hg ?_
    rw [Check.expr, run_open hw.opened (by exact skip_untyped huntyped), run_bind_of hagain]
    dsimp only
    obtain ⟨_, hs₁⟩ := hstep.sound hs
    rw [run_bind_of (run_typed_fields hs₁ hinits h₂.alive h₂.typed hw.opened (hg₂.trans hg))]

end

end RainCheck
