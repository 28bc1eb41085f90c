import RainCheck.Proofs.Retrying

/-!
# Walking through a refused tree again: names, blocks and functions
-/

namespace RainCheck

open Check RainCheck.Action

section

variable {α β : Type} {L : Listing} {functions : List Variable} {s s' : Store} {fr : FrameId} {info : Info}
  {name : String} {d : Diagnostic}

/-- An action ends early in its first step or in a later one. -/
theorem ended_bind {a : Action α} {f : α → Action β} {why : Stop} (h : (a >>= f).run.run s = (.error why, s')) :
    a.run.run s = (.error why, s') ∨ ∃ x s₁, a.Yields s x s₁ ∧ (f x).run.run s₁ = (.error why, s') := by
  rw [run_bind] at h
  rcases ha : a.run.run s with ⟨e | x, s₁⟩
  · rw [ha] at h
    cases h
    exact .inl rfl
  · rw [ha] at h
    exact .inr ⟨x, s₁, ha, h⟩

theorem refused_declare {v : Variable} (h : (declare fr v).run.run s = (.error (.refused d), s')) :
    d = ⟨v.span, .duplicateDeclaration v.name⟩ := by
  cases hf : s.frames.get fr with
  | ok f =>
    rw [run_declare (itemAt_eq_ok_iff.mp hf)] at h
    split at h
    · cases h
      rfl
    · cases h
  | error e =>
    unfold declare updateFrames at h
    change (liftStop (s.frames.declare fr v) >>= fun frames => (set { s with frames } : Action Unit)).run.run s = _ at h
    unfold Frames.declare at h
    rw [hf] at h
    cases h

/-- A variable is refused if its function is. -/
private theorem refused_variable {v : Variable} (hs : s.Sound L) (hidle : s.Idle) (hv : s.Declares L v)
    (h : (resolveVariable v).run.run s = (.error (.refused d), s')) :
    s.GrowsTo s' ∧ v.kind.isFunction = true ∧ (s'.function v.span).signature = none ∧
      (s'.function v.span).failure = some d := by
  unfold resolveVariable at h
  unfold Store.Declares at hv
  rcases ended_bind h with h | ⟨_, _, hget, h⟩
  · cases h
  obtain ⟨rfl, rfl⟩ := yields_get.mp hget
  cases hkind : v.kind with
  | function declared =>
    simp only [hkind] at hv h
    obtain ⟨hprototype, hlisted, hregistered⟩ := hv
    cases hempty : (s.typeOf v).isEmpty with
    | false =>
      rw [hempty] at h
      cases h
    | true =>
      rw [hempty] at h
      have hends := ends_signature hs hidle hs.frames.module_lt hprototype hlisted hregistered
      rcases ended_bind h with h | ⟨_, _, -, h⟩
      · unfold Ends at hends
        rw [h] at hends
        exact ⟨hends.2.1.toGrowsTo, rfl, hends.2.2.2⟩
      · cases h
  | _ =>
    rw [hkind] at h
    cases h

/-- An identifier is refused if nothing has its name, or with the function that has it. -/
private theorem refused_identifier {r : Option Variable} (hs : s.Sound L) (hidle : s.Idle) (hfr : fr < s.frames.size)
    (hr : s.frames.lookup fr name = .ok r) (h : (identifierRule fr info name).run.run s = (.error (.refused d), s')) :
    (r = none ∧ d = ⟨info.span, .unknownSymbol name⟩) ∨ ∃ v, r = some v ∧ s.GrowsTo s' ∧ v.kind.isFunction = true ∧
      (s'.function v.span).signature = none ∧ (s'.function v.span).failure = some d := by
  obtain ⟨_, hr', hdeclares⟩ := hs.frames.lookup hfr name
  cases hr.symm.trans hr'
  unfold identifierRule at h
  rcases ended_bind h with h | ⟨_, _, hget, h⟩
  · cases h
  obtain ⟨rfl, rfl⟩ := yields_get.mp hget
  rcases ended_bind h with h | ⟨_, _, hlift, h⟩
  · exact absurd h lift_not_refused
  obtain ⟨hfound, rfl⟩ := yields_lift.mp hlift
  cases hr.symm.trans hfound
  cases r with
  | none =>
    cases h
    exact .inl ⟨rfl, rfl⟩
  | some v =>
    rcases ended_bind h with h | ⟨_, s₁, -, h⟩
    · exact .inr ⟨v, rfl, refused_variable hs hidle (hdeclares v rfl) h⟩
    rcases ended_bind h with h | ⟨_, _, -, h⟩
    · cases h
    rcases ended_bind h with h | ⟨_, _, -, h⟩
    · exact absurd h lift_not_refused
    · cases h

private theorem run_identifier_unknown (h : s.frames.lookup fr name = .ok none) :
    (identifierRule fr info name).run.run s = (.error (.refused ⟨info.span, .unknownSymbol name⟩), s) := by
  unfold identifierRule
  rw [run_bind]
  change ((lift (s.frames.lookup fr name) >>= _).run.run s) = _
  rw [h]
  rfl

/-- A function that cannot be used refuses every identifier that means it. -/
private theorem run_identifier_failed {v : Variable} (hs : s.Sound L) (hv : s.Declares L v)
    (h : s.frames.lookup fr name = .ok (some v)) (hfunction : v.kind.isFunction = true)
    (hnone : (s.function v.span).signature = none) (hfailure : (s.function v.span).failure = some d) :
    (identifierRule fr info name).run.run s = (.error (.refused d), s) := by
  have hvariable : (resolveVariable v).run.run s = (.error (.refused d), s) := by
    unfold Store.Declares at hv
    cases hkind : v.kind with
    | function declared =>
      simp only [hkind] at hv
      obtain ⟨t, ht⟩ := Option.isSome_iff_exists.mp hv.2.2
      have hempty : (s.typeOf v).isEmpty = true := by
        rcases hs.functions.variableType v.span t ht with ⟨rfl, -⟩ | ⟨sig, -, hsig⟩
        · simp [Store.typeOf, hkind, VariableKind.isFunction, ht, Holder.isEmpty]
        · rw [hnone] at hsig
          cases hsig
      unfold resolveVariable
      rw [run_bind, show (get : Action Store).run.run s = (.ok s, s) from rfl]
      dsimp only
      rw [hkind, hempty]
      dsimp only
      rw [run_bind, run_resolveSignature_failed hnone hfailure]
    | _ =>
      rw [hkind] at hfunction
      cases hfunction
  unfold identifierRule
  rw [run_bind]
  change ((lift (s.frames.lookup fr name) >>= _).run.run s) = _
  rw [h]
  change (resolveVariable v >>= _).run.run s = _
  rw [run_bind, hvariable]

/-- An identifier that was refused is refused again where no more local names are seen. -/
private theorem identifier_again {s₂ : Store} {fr₂ : FrameId} (hs : s.Sound L) (hidle : s.Idle)
    (hmodule : s.Shows FrameId.module [functions]) (hfr : fr < s.frames.size) (hinner : s.Inner fr s.Resolved)
    (h : (identifierRule fr info name).run.run s = (.error (.refused d), s')) (hs₂ : s₂.Sound L) (hg : s'.GrowsTo s₂)
    (hmodule₂ : s₂.Shows FrameId.module [functions]) (hfr₂ : fr₂ < s₂.frames.size)
    (hinner₂ : s₂.Inner fr₂ fun _ => True)
    (hsees : s₂.Sees fr₂ name → s.Sees fr name) :
    (identifierRule fr₂ info name).run.run s₂ = (.error (.refused d), s₂) := by
  rcases hinner.lookup (hmodule.within_module hs.frames) name with ⟨-, v, hv, hknown⟩ | ⟨hlocal, hlookup⟩
  · -- the type of a local function is resolved when it is declared
    rcases refused_identifier hs hidle hfr hv h with ⟨hnone, -⟩ | ⟨_, hsome, hg', hfunction, hnone, -⟩
    · cases hnone
    · cases hsome
      have hresolved := (hknown hfunction).grow hg'
      rw [Store.Resolved, hnone] at hresolved
      cases hresolved
  · rcases hinner₂.lookup (hmodule₂.within_module hs₂.frames) name with ⟨hsee, -⟩ | ⟨-, hlookup₂⟩
    · exact absurd (hsees hsee) hlocal
    obtain ⟨r, hr, hbare⟩ := hmodule.lookup hs.frames name
    obtain ⟨r₂, hr₂, hbare₂⟩ := hmodule₂.lookup hs₂.frames name
    rw [← hbare] at hbare₂
    rw [hr₂] at hlookup₂
    rcases refused_identifier hs hidle hfr (hlookup.trans hr) h with
      ⟨rfl, rfl⟩ | ⟨v, rfl, -, hfunction, hnone, hfailure⟩
    · rw [Option.map_none, Option.map_eq_none_iff] at hbare₂
      subst hbare₂
      exact run_identifier_unknown hlookup₂
    · obtain ⟨v₂, rfl, hv₂⟩ := Option.map_eq_some_iff.mp hbare₂
      have hspan : v₂.span = v.span := by simpa [Variable.bare] using congrArg Variable.span hv₂
      have hkind : v₂.kind = v.kind := by simpa [Variable.bare] using congrArg Variable.kind hv₂
      obtain ⟨_, hr₂', hdeclares⟩ := hs₂.frames.lookup hfr₂ name
      cases hlookup₂.symm.trans hr₂'
      obtain ⟨hnone₂, hfailure₂⟩ := (hg.functions v.span).failure d hnone hfailure
      exact run_identifier_failed hs₂ (hdeclares v₂ rfl) hlookup₂ (by rw [hkind, hfunction]) (by rw [hspan, hnone₂])
        (by rw [hspan, hfailure₂])

end

section

variable {L : Listing} {functions : List Variable} {c : Context} {fr fr₂ : FrameId} {st st' st₁ st₂ σ : CheckState}
  {d : Diagnostic}

/-! ### Names -/

private theorem Visit.Resumes.frame_lt {v w : Visit} (hw : v.Resumes L functions w) :
    w.frame < w.state.store.frames.size := by
  obtain ⟨scope, hshows⟩ := hw.shows
  exact hshows.lt_size

/-- How a refused action ends. -/
theorem attempt_refused {α : Type} {a : Action α} (hopen : st.stop = none) (hrun : (attempt a).run st = (none, st'))
    (hstop : st'.stop = some (.refused d)) : a.run.run st.store = (.error (.refused d), st'.store) := by
  rw [run_attempt hopen] at hrun
  rcases ha : a.run.run st.store with ⟨why | x, s⟩
  · rw [ha] at hrun
    cases hrun
    cases hstop
    rfl
  · rw [ha] at hrun
    cases hrun

theorem retries_identifier {info : Info} {name : String} {binding : Option Variable} :
    Visit.Retries L functions ⟨c, fr, .expr (.identifier info name binding), st⟩ := by
  refine retries_expr fun d e' st' fr₂ σ b hrun hf hstop hv hw hg => ?_
  have hopen : st.stop = none := hv.opened
  have huntyped : info.type = none := hf.untyped
  obtain ⟨uses, scope, hs⟩ := hv.sound
  rw [Check.expr, run_open hopen (by exact skip_untyped huntyped)] at hrun
  obtain ⟨o, st₁, hrule, hrun⟩ := run_bind_inv hrun
  cases o with
  | some found =>
    obtain ⟨i, _, hi, hreturn⟩ := run_bind_inv hrun
    cases hreturn
    exact absurd hstop (conclude_return (attempt_alive hrule) hi)
  | none =>
    cases hrun
    have hagain : (identifierRule fr₂ info name).run.run σ.store = (.error (.refused d), σ.store) :=
      identifier_again hs.ready.sound.store hs.ready.sound.idle hs.ready.module hs.ready.frame hv.inner
        (attempt_refused hopen hrule hstop) hw.sound.store hg hw.module hw.frame_lt hw.inner (hw.sees name)
    have hattempt : (attempt (identifierRule fr₂ info name)).run σ = (none, { σ with stop := some (.refused d) }) := by
      rw [run_attempt hw.opened, hagain]
    refine Visit.refuses_of_after hw.sound ?_
    change ((Check.expr c fr₂ (.identifier info name binding)).run σ).2 = _
    rw [Check.expr, run_open hw.opened (by exact skip_untyped huntyped), run_bind_of hattempt]
    rfl

theorem retries_letBinding {info : Info} {binding : Holder Variable} {declared : Option TypeExpr} {init : Expr}
    (ih : ∀ v', Visit.Step ⟨c, fr, .expr (.letBinding info binding declared init), st⟩ v' → v'.Retries L functions) :
    Visit.Retries L functions ⟨c, fr, .expr (.letBinding info binding declared init), st⟩ := by
  refine retries_expr fun d e' st' fr₂ σ b hrun hf hstop hv hw hg => ?_
  have hopen : st.stop = none := hv.opened
  have huntyped : info.type = none := hf.untyped
  obtain ⟨uses, scope, hs⟩ := hv.sound
  cases hf with
  | @letBinding span nameSpan name mutable _ _ hinit =>
    rw [Check.expr, run_open hopen rfl] at hrun
    obtain ⟨init', st₁, hvalue, hrun⟩ := run_bind_inv hrun
    obtain ⟨o, st₂, hrule, hrun⟩ := run_bind_inv hrun
    obtain ⟨hdeclared, -⟩ := Listing.lists_append.mp hs.ready.listed
    cases o with
    | none =>
      -- the rule is refused with the same problem, its value being annotated by now
      cases hrun
      rcases hv.child hw ih (.initial hopen huntyped) rfl rfl (.refl st) hopen (gives_expr hvalue)
        (.initial hw.opened huntyped) with h | h₁
      · exact h
      have hsame : SameTypes (Store.Here fr₂) st₁.store fr fr₂ := h₁.sound.store.sameTypes
        ((hs.ready.module.within_module hs.ready.sound.store.frames).grow h₁.along.grows) (h₁.along.inner hv.inner)
      have hagain := attempt_again
        (repeats_letRule h₁.sound.store h₁.sound.idle (h₁.along.grows.frame_lt hs.ready.frame) hdeclared hsame)
        h₁.alive hrule (by simp [hstop]) hw.opened hg hw.here
      refine Visit.refuses_of_after hw.sound ?_
      change ((Check.expr c fr₂ (.letBinding _ _ _ _)).run σ).2 = _
      rw [Check.expr, run_open hw.opened (by exact skip_untyped huntyped), run_bind_of (run_typed h₁.typed),
        run_bind_of hagain, hstop]
      rfl
    | some v =>
      have h₁ := hv.passed (.initial hopen huntyped) (gives_expr hvalue) (attempt_gives hrule).opened
      obtain ⟨t, ht⟩ := h₁.typed
      obtain ⟨-, -, holder, -, rfl, -⟩ := Ends.yielded (keeps_let h₁.sound.store h₁.sound.idle
        (h₁.along.grows.frame_lt hs.ready.frame) hdeclared ht) (attempt_gives hrule).yields
      obtain ⟨o, st₃, hdeclare, hrun⟩ := run_bind_inv hrun
      cases o with
      | some v =>
        obtain ⟨i, _, hi, hreturn⟩ := run_bind_inv hrun
        cases hreturn
        exact absurd hstop (conclude_return (attempt_alive hdeclare) hi)
      | none =>
        cases hrun
        rcases ended_bind (attempt_refused (attempt_alive hrule) hdeclare hstop) with h | ⟨_, _, -, h⟩
        · have honce : d ≠ ⟨nameSpan, .duplicateDeclaration name⟩ :=
            hv.once _ (Expr.self_mem_nodes _) _ List.mem_cons_self
          exact absurd (refused_declare h) honce
        · exact absurd h lift_not_refused

/-! ### Blocks -/

/-- The state in a new frame. -/
def CheckState.nest (st : CheckState) (fr : FrameId) (f : Frame) : CheckState :=
  { st with store := st.store.addFrame (fr :: f.outer) }

private theorem attempt_nest {f : Frame} (hopen : st.stop = none) (hf : st.store.frame? fr = some f) :
    (attempt (nest fr)).run st = (some st.store.frames.size, st.nest fr f) := by
  rw [run_attempt hopen, run_nest hf]
  rfl

/-- The problem is in a part of a block, or the part is passed by. -/
private theorem Visit.Fails.within {v v' w : Visit} {p : Part} {f f₂ : Frame} (hv : v.Fails L functions d)
    (hw : v.Resumes L functions w) (ih : ∀ v', v.Step v' → v'.Retries L functions) (hstep : v.Step v')
    (hframe : v'.frame = v.state.store.frames.size) (hcontext : v'.context = v.context)
    (hf : v.state.store.frame? v.frame = some f) (hf₂ : w.state.store.frame? w.frame = some f₂)
    (halong : (v.state.nest v.frame f).Along v.state.store.frames.size v'.state) (hopen : v'.state.stop = none)
    (hgives : v'.Gives p st)
    (hstep₂ : w.Step ⟨w.context, w.state.store.frames.size, p, w.state.nest w.frame f₂⟩) :
    w.Refuses L d ∨ (v.state.nest v.frame f).Passes L v.state.store.frames.size st p := by
  cases hstop : st.stop with
  | none =>
    have h := hv.passed hstep hgives hstop
    rw [hframe] at h
    exact .inr ⟨h.alive, halong.trans h.along, h.sound, h.typed⟩
  | some why =>
    left
    obtain ⟨hresult, hafter⟩ := hgives
    rw [← hafter] at hstop
    have hinner : v'.state.store.Inner v'.frame v'.state.store.Resolved := by
      rw [hframe]
      refine halong.inner ?_
      exact (hv.inner.nest hf).mono fun _ => .grow Store.extends_addFrame.toGrowsTo
    have hmoves : w.state.store.Moves L w.state.store.frames.size [] (w.state.nest w.frame f₂).store :=
      .addFrame hw.sound.store hf₂
    refine (ih v' hstep).step hv hstep hopen hstop hinner ?_ hstep₂ fun h => (hmoves.trans h).before le_rfl
    have hg : v'.after.store.GrowsTo w.state.store := (hstep.ended why hstop).2 ▸ hw.grows
    obtain ⟨scope, hshows⟩ := hw.shows
    exact {
      context := hw.context.trans hcontext.symm
      part := hresult.symm
      opened := hw.opened
      sound := ⟨hmoves.sound, hmoves.toExtends.idle hw.sound.idle, hw.sound.faultless⟩
      grows := hg.trans hmoves.toGrowsTo
      module := hw.module.before hw.sound.store.frames hmoves.leaves hw.sound.store.frames.module_lt
      shows := ⟨_, hshows.nest hf₂⟩
      inner := hw.inner.nest hf₂
      sees := fun name hname => by
        rw [hframe]
        refine Store.Sees.grow halong.grows ?_
        exact (hv.inner.sees_nest hf).mpr (hw.sees name ((hw.inner.sees_nest hf₂).mp hname))
      loops := hw.loops.trans halong.loops.symm }

theorem retries_block {b : Block Expr}
    (ih : ∀ v', Visit.Step ⟨c, fr, .block b, st⟩ v' → v'.Retries L functions) :
    Visit.Retries L functions ⟨c, fr, .block b, st⟩ := by
  rintro d ⟨c₂, fr₂, part, σ⟩ hv hw
  rcases hrun : (Check.block c fr b).run st with ⟨b', st'⟩
  have hgives := gives_block hrun
  obtain rfl : c₂ = c := hw.context
  obtain rfl : part = .block b' := hw.part.trans hgives.1
  have hstop : st'.stop = some (.refused d) := hgives.2 ▸ hv.stop
  have hg : st'.store.GrowsTo σ.store := hgives.2 ▸ hw.grows
  have hopen : st.stop = none := hv.opened
  obtain ⟨uses, scope, hs⟩ := hv.sound
  obtain ⟨info, entered, stmts, tail⟩ := b
  have huntyped : info.type = none := hs.fresh.untyped
  obtain ⟨f, -, hf⟩ := Store.get_frame hs.ready.frame
  obtain ⟨f₂, -, hf₂⟩ := Store.get_frame hw.frame_lt
  have hnest := attempt_nest hopen hf
  have hnest₂ : (attempt (nest fr₂)).run σ = _ := attempt_nest hw.opened hf₂
  rw [Check.block, run_open hopen (by exact skip_untyped huntyped), run_bind_of hnest] at hrun
  obtain ⟨stmts', st₁, hstmts, hrun⟩ := run_bind_inv hrun
  obtain ⟨tail', st₂, htail, hrun⟩ := run_bind_inv hrun
  obtain ⟨i, _, hi, hreturn⟩ := run_bind_inv hrun
  cases hreturn
  obtain rfl := conclude_stopped hi hstop
  rcases hv.within hw ih (.statements hopen huntyped hnest) rfl rfl hf hf₂ (.refl _) hopen (gives_exprs hstmts)
    (.statements hw.opened huntyped hnest₂) with h | h₁
  · exact h
  rcases hv.within hw ih (.blockTail hopen huntyped hnest hstmts) rfl rfl hf hf₂ h₁.along h₁.alive (gives_option htail)
    (.blockTail hw.opened huntyped hnest₂ (run_typed_all h₁.typed)) with h | h₂
  · exact h
  have hagain := conclude_again (Q := fun _ => True) repeats_blockRule h₂.alive hi (by simp [hstop])
    (σ := σ.nest fr₂ f₂) hw.opened (hg.trans Store.extends_addFrame.toGrowsTo) trivial
  have hafter : Visit.after ⟨c₂, fr₂, .block ⟨i, some st.store.frames.size, stmts', tail'⟩, σ⟩ =
      { σ.nest fr₂ f₂ with stop := st'.stop } := by
    change ((Check.block c₂ fr₂ ⟨i, some st.store.frames.size, stmts', tail'⟩).run σ).2 = _
    rw [Check.block, run_open hw.opened (by exact skip_untyped huntyped), run_bind_of hnest₂]
    dsimp only
    rw [run_bind_of (run_typed_all h₁.typed), run_bind_of (run_typed_option h₂.typed), run_bind_of hagain]
    rfl
  refine ⟨by rw [hafter, hstop], ?_⟩
  rw [hafter]
  exact .addFrame hw.sound.store hf₂

/-- A block that is refused gets no type. -/
private theorem block_refused {b b' : Block Expr} {why : Stop} (hopen : st.stop = none) (huntyped : b.info.type = none)
    (hrun : (Check.block c fr b).run st = (b', st')) (hstop : st'.stop = some why) : b'.info = b.info := by
  obtain ⟨info, entered, stmts, tail⟩ := b
  rw [Check.block, run_open hopen (by exact skip_untyped huntyped)] at hrun
  obtain ⟨o, st₁, hnest, hrun⟩ := run_bind_inv hrun
  cases o with
  | none =>
    cases hrun
    rfl
  | some inner =>
    obtain ⟨stmts', st₂, hstmts, hrun⟩ := run_bind_inv hrun
    obtain ⟨tail', st₃, htail, hrun⟩ := run_bind_inv hrun
    obtain ⟨i, _, hi, hreturn⟩ := run_bind_inv hrun
    cases hreturn
    exact conclude_stopped hi hstop

theorem retries_blockExpr {b : Block Expr}
    (ih : ∀ v', Visit.Step ⟨c, fr, .expr (.block b), st⟩ v' → v'.Retries L functions) :
    Visit.Retries L functions ⟨c, fr, .expr (.block b), st⟩ := by
  refine retries_expr fun d e' st' fr₂ σ _ hrun hf hstop hv hw hg => ?_
  have hopen : st.stop = none := hv.opened
  have huntyped : b.info.type = none := hf.untyped
  rw [Check.expr, run_open hopen (by exact skip_untyped huntyped)] at hrun
  obtain ⟨b', _, hblock, hreturn⟩ := run_bind_inv hrun
  cases hreturn
  have huntyped₂ : b'.info.type = none := by rw [block_refused hopen huntyped hblock hstop, huntyped]
  rcases hv.child hw ih (.block hopen huntyped) rfl rfl (.refl st) hopen (gives_block hblock)
    (.block hw.opened huntyped₂) with h | h
  · exact h
  · exact absurd h.alive (by simp [hstop])

/-! ### Lists of expressions -/

theorem retries_option {e : Option Expr}
    (ih : ∀ v', Visit.Step ⟨c, fr, .option e, st⟩ v' → v'.Retries L functions) :
    Visit.Retries L functions ⟨c, fr, .option e, st⟩ := by
  rintro d ⟨c₂, fr₂, part, σ⟩ hv hw
  rcases hrun : (Check.option c fr e).run st with ⟨e', st'⟩
  have hgives := gives_option hrun
  obtain rfl : c₂ = c := hw.context
  obtain rfl : part = .option e' := hw.part.trans hgives.1
  have hstop : st'.stop = some (.refused d) := hgives.2 ▸ hv.stop
  have hopen : st.stop = none := hv.opened
  cases e with
  | none =>
    rw [Check.option] at hrun
    cases hrun
    exact absurd hopen (by simp [hstop])
  | some e =>
    rw [Check.option] at hrun
    obtain ⟨e', _, hexpr, hreturn⟩ := run_bind_inv hrun
    cases hreturn
    rcases hv.child hw ih .present rfl rfl (.refl st) hopen (gives_expr hexpr) .present with h | h
    · exact h
    · exact absurd h.alive (by simp [hstop])

theorem retries_exprs {es : List Expr}
    (ih : ∀ v', Visit.Step ⟨c, fr, .exprs es, st⟩ v' → v'.Retries L functions) :
    Visit.Retries L functions ⟨c, fr, .exprs es, st⟩ := by
  rintro d ⟨c₂, fr₂, part, σ⟩ hv hw
  rcases hrun : (Check.exprs c fr es).run st with ⟨es', st'⟩
  have hgives := gives_exprs hrun
  obtain rfl : c₂ = c := hw.context
  obtain rfl : part = .exprs es' := hw.part.trans hgives.1
  have hstop : st'.stop = some (.refused d) := hgives.2 ▸ hv.stop
  have hopen : st.stop = none := hv.opened
  cases es with
  | nil =>
    rw [Check.exprs] at hrun
    cases hrun
    exact absurd hopen (by simp [hstop])
  | cons e rest =>
    rw [Check.exprs] at hrun
    obtain ⟨e', st₁, hexpr, hrun⟩ := run_bind_inv hrun
    obtain ⟨rest', _, hrest, hreturn⟩ := run_bind_inv hrun
    cases hreturn
    rcases hv.child hw ih .head rfl rfl (.refl st) hopen (gives_expr hexpr) .head with h | h₁
    · exact h
    rcases hv.child hw ih (.tail hexpr) rfl rfl h₁.along h₁.alive (gives_exprs hrest)
      (.tail (run_typed h₁.typed)) with h | h₂
    · exact h
    · exact absurd h₂.alive (by simp [hstop])

/-! ### Control flow -/

theorem run_state (st : CheckState) : (get : Check CheckState).run st = (st, st) := rfl

private theorem run_enterLoop (st : CheckState) : enterLoop.run st = ((), { st with loops := false :: st.loops }) := rfl

private theorem run_exitLoop (st : CheckState) :
    exitLoop.run st = (st.loops.head?.getD false, { st with loops := st.loops.drop 1 }) := rfl

private theorem run_markLeft (st : CheckState) :
    markLeft.run st = ((), { st with loops := st.loops.modifyHead fun _ => true }) := rfl

/-- A block that has to be of a type is refused again, whatever would be known otherwise. -/
private theorem conclude_expect_again {info i j k : Info} {body : Block Expr} {t : TypeId} (hopen : st.stop = none)
    (hrun : (conclude info (do expectBlock body t; return j)).run st = (i, st')) (hstop : st'.stop = some (.refused d))
    (hσ : σ.stop = none) (hg : st'.store.GrowsTo σ.store) :
    (conclude info (do expectBlock body t; return k)).run σ = (info, { σ with stop := some (.refused d) }) := by
  have hexpect : (expectBlock body t).run.run st.store = (.error (.refused d), st'.store) := by
    rcases ended_bind (conclude_refused_inv hopen hrun hstop) with h | ⟨_, _, -, h⟩
    · exact h
    · cases h
  have hagain : (expectBlock body t).run.run σ.store = (.error (.refused d), σ.store) :=
    (repeats_expectType (Q := fun _ => True) _ _ hexpect (by simp)).2 σ.store hg trivial
  refine conclude_refused hσ ?_
  rw [run_bind, hagain]

theorem retries_ifElse {info : Info} {cond : Expr} {thenBlock : Block Expr} {other : Option Expr}
    (ih : ∀ v', Visit.Step ⟨c, fr, .expr (.ifElse info cond thenBlock other), st⟩ v' → v'.Retries L functions) :
    Visit.Retries L functions ⟨c, fr, .expr (.ifElse info cond thenBlock other), st⟩ := by
  refine retries_expr fun d e' st' fr₂ σ b hrun hf hstop hv hw hg => ?_
  have hopen : st.stop = none := hv.opened
  have huntyped : info.type = none := hf.untyped
  rw [Check.expr, run_open hopen (by exact skip_untyped huntyped)] at hrun
  obtain ⟨cond', st₁, hcond, hrun⟩ := run_bind_inv hrun
  obtain ⟨_, st₂, hbool, hbranches⟩ := run_bind_inv hrun
  obtain ⟨then', st₃, hthen, hrun⟩ := run_bind_inv hbranches
  obtain ⟨other', st₄, hother, hrun⟩ := run_bind_inv hrun
  obtain ⟨i, _, hi, hreturn⟩ := run_bind_inv hrun
  cases hreturn
  obtain rfl := conclude_stopped hi hstop
  have hg₄ : st₄.store.GrowsTo st'.store := conclude_grows (Q := fun _ => True) repeats_ifRule hi (by simp [hstop])
  have hg₂ : st₂.store.GrowsTo st₄.store := (hv.grows (.thenBlock hopen huntyped hcond hbool) (gives_block hthen)).trans
    (hv.grows (.elseBranch hopen huntyped hcond hbool hthen) (gives_option hother))
  rcases hv.child hw ih (.ifCondition hopen huntyped) rfl rfl (.refl st) hopen (gives_expr hcond)
    (.ifCondition hw.opened huntyped) with h | h₁
  · exact h
  have hrun₂ : (Check.expr c fr₂ (.ifElse i cond' then' other')).run σ =
      (demand (expectExpr cond' TypeId.bool) >>= fun _ => do
        let thenBlock ← Check.block c fr₂ then'
        let elseBranch ← Check.option c fr₂ other'
        return .ifElse (← conclude i (ifRule i thenBlock elseBranch)) cond' thenBlock elseBranch).run σ := by
    rw [Check.expr, run_open hw.opened (by exact skip_untyped huntyped), run_bind_of (run_typed h₁.typed)]
  rcases hw.expect h₁.alive hbool ((steady_block _).bind fun _ => (steady_option _).bind fun _ => steady_node) hbranches
    hstop ((hg₂.trans hg₄).trans hg) ((steady_block _).bind fun _ => (steady_option _).bind fun _ => steady_node)
    (congrArg Prod.snd hrun₂) with h | ⟨rfl, hbool₂⟩
  · exact h
  rcases hv.child hw ih (.thenBlock hopen huntyped hcond hbool) rfl rfl h₁.along h₁.alive (gives_block hthen)
    (.thenBlock hw.opened huntyped (run_typed h₁.typed) hbool₂) with h | h₃
  · exact h
  rcases hv.child hw ih (.elseBranch hopen huntyped hcond hbool hthen) rfl rfl h₃.along h₃.alive (gives_option hother)
    (.elseBranch hw.opened huntyped (run_typed h₁.typed) hbool₂ (run_typed_block h₃.typed)) with h | h₄
  · exact h
  refine hw.refuses (m := fun i => .ifElse i cond' then' other') repeats_ifRule h₄.alive hi hstop hg ?_
  rw [hrun₂, run_bind_of hbool₂, run_bind_of (run_typed_block h₃.typed), run_bind_of (run_typed_option h₄.typed)]

private theorem repeats_voidBlockRule {Q : Store → Prop} {s : Store} {info : Info} {body : Block Expr} {t : TypeId} :
    Repeats Q s (voidBlockRule info body t) (voidBlockRule info body t) :=
  repeats_expectType.bind fun _ _ _ => repeats_pure

/-- A loop whose body is passed is refused again. -/
private theorem Visit.Resumes.loop {v : Visit} {e : Expr} {m : Info → Expr} {info i j k : Info} {body : Block Expr}
    (hw : v.Resumes L functions ⟨c, fr₂, .expr e, σ⟩) (hopen : st₁.stop = none)
    (hi : (conclude info (do expectBlock body TypeId.void; return j)).run st₁ = (i, st'))
    (hstop : st'.stop = some (.refused d)) (hg : st'.store.GrowsTo σ.store)
    (hrun : (Check.expr c fr₂ e).run σ =
      (do return m (← conclude info (do expectBlock body TypeId.void; return k))).run σ) :
    Visit.Refuses L ⟨c, fr₂, .expr e, σ⟩ d := by
  refine Visit.refuses_of_after hw.sound ?_
  change ((Check.expr c fr₂ e).run σ).2 = _
  rw [hrun, run_bind_of (conclude_expect_again hopen hi hstop hw.opened hg)]
  rfl

theorem retries_whileLoop {info : Info} {cond : Expr} {body : Block Expr}
    (ih : ∀ v', Visit.Step ⟨c, fr, .expr (.whileLoop info cond body), st⟩ v' → v'.Retries L functions) :
    Visit.Retries L functions ⟨c, fr, .expr (.whileLoop info cond body), st⟩ := by
  refine retries_expr fun d e' st' fr₂ σ b hrun hf hstop hv hw hg => ?_
  have hopen : st.stop = none := hv.opened
  have huntyped : info.type = none := hf.untyped
  rw [Check.expr, run_open hopen (by exact skip_untyped huntyped)] at hrun
  obtain ⟨cond', st₁, hcond, hrun⟩ := run_bind_inv hrun
  obtain ⟨_, st₂, hbool, hloop⟩ := run_bind_inv hrun
  obtain ⟨_, _, henter, hrun⟩ := run_bind_inv hloop
  cases henter
  obtain ⟨body', st₃, hbody, hrun⟩ := run_bind_inv hrun
  obtain ⟨left, _, hexit, hrun⟩ := run_bind_inv hrun
  cases hexit
  obtain ⟨i, _, hi, hreturn⟩ := run_bind_inv hrun
  cases hreturn
  obtain rfl := conclude_stopped hi hstop
  have hg₃ : ({ st₃ with loops := st₃.loops.drop 1 } : CheckState).store.GrowsTo st'.store :=
    conclude_grows (Q := fun _ => True) repeats_voidBlockRule hi (by simp [hstop])
  have hg₂ : st₂.store.GrowsTo st₃.store := hv.grows (.whileBody hopen huntyped hcond hbool) (gives_block hbody)
  rcases hv.child hw ih (.whileCondition hopen huntyped) rfl rfl (.refl st) hopen (gives_expr hcond)
    (.whileCondition hw.opened huntyped) with h | h₁
  · exact h
  -- with an annotated condition the loop comes straight to the test of its type
  have hrun₂ : (Check.expr c fr₂ (.whileLoop i cond' body')).run σ =
      (demand (expectExpr cond' TypeId.bool) >>= fun _ => do
        enterLoop
        let body ← Check.block c fr₂ body'
        let _ ← exitLoop
        return .whileLoop (← conclude i (do expectBlock body TypeId.void; return i.resolve TypeId.void false false))
          cond' body).run σ := by
    rw [Check.expr, run_open hw.opened (by exact skip_untyped huntyped), run_bind_of (run_typed h₁.typed)]
  have hsteady : ∀ (frame : FrameId) (body : Block Expr), Steady (do
      enterLoop
      let body ← Check.block c frame body
      let _ ← exitLoop
      return .whileLoop (← conclude i (do expectBlock body TypeId.void; return i.resolve TypeId.void false false))
        cond' body : Check Expr) := fun frame body =>
    (steady_same fun _ => ⟨rfl, rfl⟩).bind fun _ => (steady_block _).bind fun _ =>
      (steady_same fun _ => ⟨rfl, rfl⟩).bind fun _ => steady_node
  rcases hw.expect h₁.alive hbool (hsteady fr body) hloop hstop ((hg₂.trans hg₃).trans hg) (hsteady fr₂ body')
    (congrArg Prod.snd hrun₂) with h | ⟨rfl, hbool₂⟩
  · exact h
  rcases hv.inside (σ := (enterLoop.run σ).2) hw ih (.whileBody hopen huntyped hcond hbool) rfl rfl h₁.along.grows
    (h₁.along.inner hv.inner) h₁.alive
    (gives_block hbody) rfl hw.opened rfl (.whileBody hw.opened huntyped (run_typed h₁.typed) hbool₂) with h | h₃
  · exact h
  refine hw.loop (m := fun i => .whileLoop i cond' body') (k := i.resolve TypeId.void false false)
    (by exact h₃.alive) hi hstop hg ?_
  rw [hrun₂, run_bind_of hbool₂, run_bind_of (run_enterLoop σ), run_bind_of (run_typed_block h₃.typed),
    run_bind_of (run_exitLoop _)]
  rfl

theorem retries_endlessLoop {info : Info} {body : Block Expr}
    (ih : ∀ v', Visit.Step ⟨c, fr, .expr (.endlessLoop info body), st⟩ v' → v'.Retries L functions) :
    Visit.Retries L functions ⟨c, fr, .expr (.endlessLoop info body), st⟩ := by
  refine retries_expr fun d e' st' fr₂ σ b hrun hf hstop hv hw hg => ?_
  have hopen : st.stop = none := hv.opened
  have huntyped : info.type = none := hf.untyped
  rw [Check.expr, run_open hopen (by exact skip_untyped huntyped)] at hrun
  obtain ⟨_, _, henter, hrun⟩ := run_bind_inv hrun
  cases henter
  obtain ⟨body', st₁, hbody, hrun⟩ := run_bind_inv hrun
  obtain ⟨left, _, hexit, hrun⟩ := run_bind_inv hrun
  cases hexit
  obtain ⟨i, _, hi, hreturn⟩ := run_bind_inv hrun
  cases hreturn
  obtain rfl := conclude_stopped hi hstop
  rcases hv.inside (σ := (enterLoop.run σ).2) hw ih (.endlessBody hopen huntyped) rfl rfl (.refl _) hv.inner hopen
    (gives_block hbody) rfl hw.opened
    rfl (.endlessBody hw.opened huntyped) with h | h₁
  · exact h
  -- the body is skipped, so the second walk meets no jump out of the loop
  refine hw.loop (m := fun i => .endlessLoop i body') (k := i.resolve TypeId.never false false) (by exact h₁.alive)
    hi hstop hg ?_
  rw [Check.expr, run_open hw.opened (by exact skip_untyped huntyped), run_bind_of (run_enterLoop σ),
    run_bind_of (run_typed_block h₁.typed), run_bind_of (run_exitLoop _)]
  rfl

private theorem retries_jump {make : Info → Expr} {keyword : String} {note : Check Unit} {info : Info}
    (marks : List Bool → List Bool) (hexpr : ∀ {c fr i}, Check.expr c fr (make i) = jump make keyword note i)
    (hmake : ∀ i, (make i).info = i) (hnote : ∀ st, note.run st = ((), { st with loops := marks st.loops })) :
    Visit.Retries L functions ⟨c, fr, .expr (make info), st⟩ := by
  refine retries_expr fun d e' st' fr₂ σ b hrun hf hstop hv hw hg => ?_
  have hopen : st.stop = none := hv.opened
  have huntyped : info.type = none := hmake info ▸ hf.untyped
  rw [hexpr, jump, run_open hopen (by exact skip_untyped huntyped), run_bind_of (run_state st),
    run_bind_of (hnote st)] at hrun
  obtain ⟨i, _, hi, hreturn⟩ := run_bind_inv hrun
  cases hreturn
  obtain rfl := conclude_stopped hi hstop
  have hloops : σ.loops.isEmpty = st.loops.isEmpty := hw.loops
  have hagain := conclude_again (Q := fun _ => True) repeats_jumpRule (by exact hopen) hi (by simp [hstop])
    (σ := { σ with loops := marks σ.loops }) hw.opened hg trivial
  have hafter : Visit.after ⟨c, fr₂, .expr (make i), σ⟩ = { σ with loops := marks σ.loops, stop := st'.stop } := by
    change ((Check.expr c fr₂ (make i)).run σ).2 = _
    rw [hexpr, jump, run_open hw.opened (by exact skip_untyped huntyped), run_bind_of (run_state σ), hloops,
      run_bind_of (hnote σ), run_bind_of hagain]
    rfl
  exact Visit.refuses_of_same hw.sound (by rw [hafter, hstop]) (by rw [hafter])

theorem retries_leaveLoop {info : Info} : Visit.Retries L functions ⟨c, fr, .expr (.leaveLoop info), st⟩ :=
  retries_jump (List.modifyHead fun _ => true) expr_leaveLoop (fun _ => rfl) run_markLeft

theorem retries_nextRound {info : Info} : Visit.Retries L functions ⟨c, fr, .expr (.nextRound info), st⟩ :=
  retries_jump id expr_nextRound (fun _ => rfl) fun _ => rfl

theorem retries_leaveFunction {info : Info} {result : Option Expr}
    (ih : ∀ v', Visit.Step ⟨c, fr, .expr (.leaveFunction info result), st⟩ v' → v'.Retries L functions) :
    Visit.Retries L functions ⟨c, fr, .expr (.leaveFunction info result), st⟩ := by
  refine retries_expr fun d e' st' fr₂ σ b hrun hf hstop hv hw hg => ?_
  have hopen : st.stop = none := hv.opened
  have huntyped : info.type = none := hf.untyped
  rw [Check.expr, run_open hopen (by exact skip_untyped huntyped)] at hrun
  cases hreturns : c.returns.isSome with
  | true =>
    rw [hreturns] at hrun
    obtain ⟨result', st₁, hresult, hrun⟩ := run_bind_inv hrun
    obtain ⟨i, _, hi, hreturn⟩ := run_bind_inv hrun
    cases hreturn
    obtain rfl := conclude_stopped hi hstop
    rcases hv.child hw ih (.result hopen huntyped hreturns) rfl rfl (.refl st) hopen (gives_option hresult)
      (.result hw.opened huntyped hreturns) with h | h₁
    · exact h
    refine hw.refuses (m := fun i => .leaveFunction i result') repeats_returnRule h₁.alive hi hstop hg ?_
    rw [Check.expr, run_open hw.opened (by exact skip_untyped huntyped), hreturns]
    exact run_bind_of (run_typed_option h₁.typed)
  | false =>
    rw [hreturns] at hrun
    obtain ⟨_, _, hpure, hrun⟩ := run_bind_inv hrun
    cases hpure
    obtain ⟨i, _, hi, hreturn⟩ := run_bind_inv hrun
    cases hreturn
    obtain rfl := conclude_stopped hi hstop
    refine hw.refuses (m := fun i => .leaveFunction i result) repeats_returnRule hopen hi hstop hg ?_
    rw [Check.expr, run_open hw.opened (by exact skip_untyped huntyped), hreturns]
    rfl

end

end RainCheck
