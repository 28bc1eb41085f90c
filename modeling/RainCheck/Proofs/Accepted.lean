import RainCheck.Proofs.Never

/-!
# Accepted functions

How control leaves a function that a compilation has accepted.
* A function is entered in a frame whose parameters have attainable types, and from which only functions are seen.  So
  its body is visited clearly, and all paths through it are safe.
* What is known when a function is accepted is still known at the end of the compilation, since
  types stay what they are.

So a path through the body completes nothing of the type `never`, and does not fall off the end without a result.
-/

namespace RainCheck

open Check RainCheck.Action
open Relation (ReflTransGen)

/-! ### Results of functions -/

/-- How control may leave the body of a function, if it does. -/
inductive Exit.Lawful (s : Store) (returns : TypeId) (body : Block Expr) : Exit → Prop where
  /-- The last expression gives the result. -/
  | value {e : Expr} (htail : body.tail = some e) (hfits : s.Fits e.info returns) : Lawful s returns body .done
  /-- Behind the last statement there is no result, and none is needed. -/
  | fallsOff (htail : body.tail = none) (hvoid : returns = TypeId.void) : Lawful s returns body .done
  | result {e : Expr} (hfits : s.Fits e.info returns) : Lawful s returns body (.result (some e))
  | noResult (hvoid : returns = TypeId.void) : Lawful s returns body (.result none)
  | running : Lawful s returns body .running

/-- A type is that of a function, and control leaves its body as it may without completing what never completes. -/
def Store.Delivers (s : Store) (t : TypeId) (body : Block Expr) : Prop :=
  ∃ params returns, s.typeAt? t = some (.function params returns) ∧ ∀ tr x, Expr.pathsBlock body tr x →
    (∀ n ∈ tr, n.info.type ≠ some TypeId.never) ∧ x.Lawful s returns body

private theorem Exit.Lawful.stay {s s' : Store} {returns : TypeId} {body : Block Expr} {x : Exit}
    (h : x.Lawful s returns body)
    (hstay : s.TypesStay s') : x.Lawful s' returns body := by
  cases h with
  | value htail hfits => exact .value htail (hstay.fits hfits)
  | fallsOff htail hvoid => exact .fallsOff htail hvoid
  | result hfits => exact .result (hstay.fits hfits)
  | noResult hvoid => exact .noResult hvoid
  | running => exact .running

private theorem Store.Delivers.stay {s s' : Store} {t : TypeId} {body : Block Expr} (h : s.Delivers t body)
    (hstay : s.TypesStay s') : s'.Delivers t body := by
  obtain ⟨params, returns, he, hpaths⟩ := h
  refine ⟨params, returns, hstay.same he rfl, fun tr x hpath => ?_⟩
  obtain ⟨hnever, hlawful⟩ := hpaths tr x hpath
  exact ⟨hnever, hlawful.stay hstay⟩

/-- Only a function without a result takes a body without one, if the body is completed. -/
private theorem Store.Assignable.void {s : Store} {L : Listing} {u : TypeId}
    (h : s.Assignable TypeId.void u) (hs : s.TypesSound L) :
    u = TypeId.void := by
  have hget : s.types.get TypeId.void = .ok (.primitive "void") := Store.get_of_entry hs.void
  unfold Assignable Types.assignable at h
  by_cases heq : TypeId.void = u
  · exact heq.symm
  · rw [if_neg (by simp [heq, show TypeId.void ≠ TypeId.never by decide]), hget] at h
    cases h

/-- A block that fits the function and is completed gives the result. -/
private theorem Expr.Annotated.lawful {s : Store} {L : Listing} {ret : Option TypeId} {fr : FrameId} {returns : TypeId}
    {body : Block Expr} (h : (Expr.block body).Annotated s ret fr) (hfits : s.Fits body.info returns)
    (hattained : (Expr.block body).Attained s) (hs : s.TypesSound L) : Exit.Lawful s returns body .done := by
  obtain ⟨u, hu, hassignable⟩ := hfits
  obtain ⟨u', hu', hattainable⟩ := hattained
  obtain rfl := Option.some.inj (hu.symm.trans hu')
  cases h with
  | @block _ _ _ i _ tail t _ _ _ _ _ hresult hvoid hi =>
    obtain rfl := Option.some.inj (hi.type.symm.trans hu)
    cases tail with
    | some e => exact .value rfl ⟨t, hresult e rfl, hassignable⟩
    | none =>
      rcases hvoid rfl with rfl | rfl
      · exact .fallsOff rfl (hassignable.void hs)
      · exact absurd rfl (hattainable.ne_never hs)

/-- A safe path through the body of a function, which stands outside of all loops. -/
private theorem Path.Safe.lawful {c : Context} {st : CheckState} {D : Prop} {tr : List Expr} {x : Exit} {s : Store}
    {returns : TypeId} {body : Block Expr} (h : Path.Safe c st D tr x) (hloops : st.loops = [])
    (hreturns : c.returns = some returns) (hstay : st.store.TypesStay s)
    (hdone : D → Exit.Lawful s returns body .done) : x.Lawful s returns body := by
  cases x with
  | done => exact hdone (h.done rfl)
  | leave =>
    have hleft := h.leave rfl
    rw [hloops] at hleft
    cases hleft
  | next => exact absurd hloops (h.next rfl)
  | result r =>
    obtain ⟨t, ht, hfits, hvoid⟩ := (h.result r rfl).stay hstay
    obtain rfl := Option.some.inj (hreturns.symm.trans ht)
    cases r with
    | some e => exact .result (hfits e rfl)
    | none => exact .noResult (hvoid rfl)
  | running => exact .running

/-! ### Parameters -/

section

variable {L : Listing} {functions : List Variable} {uses : List Use} {σ : Scope} {options : Options} {own fr : FrameId}
  {header header' : Header} {body body' : Block Expr} {st st₁ st' : CheckState} {v : Visit}

/-- A frame stays clean when a variable of an attainable type is declared. -/
private theorem clean_declare {s s' : Store} {x : Variable} (h : s.Clean fr) (hs : s.Sound L) (hfr : fr < s.frames.size)
    (hx : s.Declares L x) (hsure : s.Sure x) (hyields : (declare fr x).Yields s () s') :
    s.Moves L fr [] s' ∧ s'.Clean fr := by
  have hends : Moves L fr [] _ s (declare fr x) _ _ := moves_declare hs hfr hx
  unfold Moves Ends at hends
  rw [show (declare fr x).run.run s = _ from hyields] at hends
  obtain ⟨hmoves, hadds, f, hf, hfind⟩ := hends
  have hg := hmoves.toExtends.toGrowsTo
  refine ⟨hmoves, h.declare hs.frames hmoves.sound.frames hfr hg hmoves.leaves hadds fun y hy hbare => ?_⟩
  -- under the name of the variable, only the variable itself is found
  obtain ⟨f', hf', hfind'⟩ := hy
  rw [hf] at hf'
  cases hf'
  have hname : y.bare.name = x.bare.name := by rw [List.mem_singleton.mp hbare]
  replace hname : y.name = x.name := hname
  rw [hname, hfind] at hfind'
  cases hfind'
  exact hsure.grow hg

/-- Behind its parameters the frame of a function is clean. -/
private theorem clean_bindParams {params ps : List Param} {types : List TypeId} (hs : st.store.Sound L)
    (hfr : fr < st.store.frames.size) (hparams : ∀ p ∈ params, p.Fresh) (hsettled : ∀ t ∈ types, st.store.Settled t)
    (hattainable : ∀ t ∈ types, st.store.Attainable t) (hclean : st.store.Clean fr)
    (hrun : (bindParams fr params types).run st = (ps, st')) (hstop : st'.stop = none) : st'.store.Clean fr := by
  induction params generalizing types st ps with
  | nil =>
    cases hrun
    exact hclean
  | cons p params ih =>
    cases types with
    | nil =>
      -- a parameter without a type ends the walk
      obtain ⟨_, st₁, hfail, hreturn⟩ := run_bind_inv hrun
      cases hreturn
      exact absurd (demand_inv hfail hstop).yields yields_fail
    | cons t types =>
      have hp := hparams p List.mem_cons_self
      have hopen : st.stop = none := steady_bindParams.opened hrun hstop
      rw [bindParams] at hrun
      replace hrun := (@run_open _ _ _ _ id hopen rfl).symm.trans hrun
      obtain ⟨_, st₁, hdeclare, hrun⟩ := run_bind_inv hrun
      obtain ⟨rest, _, hrest, hreturn⟩ := run_bind_inv hrun
      cases hreturn
      have hyields := (demand_inv hdeclare (steady_bindParams.opened hrest hstop)).yields
      have hsure : st.store.Sure { p.binding with type := .borrowed t } := fun _ =>
        ⟨t, rfl, hattainable t List.mem_cons_self⟩
      obtain ⟨hmoves, hclean₁⟩ :=
        clean_declare hclean hs hfr (hp.declares (hsettled t List.mem_cons_self)) hsure hyields
      have hg := hmoves.toExtends.toGrowsTo
      refine ih hmoves.sound (hg.frame_lt hfr) (fun q hq => hparams q (List.mem_cons_of_mem _ hq)) ?_ ?_ hclean₁ hrest
      · exact fun u hu => hg.settled (hsettled u (List.mem_cons_of_mem _ hu))
      · exact fun u hu => (hattainable u (List.mem_cons_of_mem _ hu)).stay hg.typesStay

/-! ### Bodies of functions -/

theorem grounds_function {info : Info} {entry : Entry} : (functionRule info body entry).Grounds :=
  grounds_expectType.bind fun _ => grounds_pure

/-- A function has the type of its signature. -/
private theorem functionRule_type {info j : Info} {entry : Entry} {s s' : Store}
    (h : (functionRule info body entry).Yields s j s') :
    j.type = some entry.signature := by
  obtain ⟨_, _, -, h⟩ := yields_bind.mp h
  obtain ⟨rfl, -⟩ := yields_pure.mp h
  rfl

variable (L functions uses) in
/-- A function that can be checked in a frame from which only functions are seen. -/
structure Enterable (own : FrameId) (σ : Scope) (header : Header) (body : Block Expr) (st : CheckState) : Prop where
  prepared : Prepared L functions (Expr.mentionsBlock body) st
  shows : st.store.Shows own σ
  only : ∀ layer ∈ σ, ∀ v ∈ layer, v.kind.isFunction = true
  listed : L.Lists header.mentions
  registered : (st.store.function header.span).variableType.isSome = true
  params : ∀ p ∈ header.params, p.Fresh
  fresh : (Expr.block body).Fresh false
  used : ∀ u ∈ Expr.usesBlock functions (header.params.map (·.binding) :: σ) body, u ∈ uses
  grounded : st.store.Grounded

namespace Enterable

variable {entry : Entry}

/-- What is known when a function is entered. -/
private theorem enter (h : Enterable L functions uses own σ header body st)
    (henter : (attempt (enterFunction own header)).run st = (some entry, st₁)) :
    st.Later st₁ ∧ st₁.store.Sound L ∧ st₁.store.Shows entry.frame ([] :: σ) ∧
      st₁.store.typeAt? entry.signature = some (.function entry.params entry.returns) := by
  have hmoves : Moves L st.store.frames.size [] [] st.store (enterFunction own header) _ _ :=
    moves_enterFunction h.prepared.sound.store h.prepared.sound.idle h.shows h.listed h.registered
  obtain ⟨hgo, hP⟩ := (walks_iff henter).mp (walks_attempt (p := {}) h.prepared.sound (fun _ => hmoves) fun _ => .inl)
  obtain ⟨_, heq, -, hshows, he, -⟩ := hP (attempt_alive henter)
  cases heq
  exact ⟨⟨(advances_attempt grounds_enterFunction).of_run henter, h.grounded⟩, hgo.moves.sound, hshows, he⟩

/-- The body of a function is visited clearly. -/
private theorem clear (h : Enterable L functions uses own σ header body st) (hv : v.Begins options own header body st)
    (hopen : v.state.stop = none) : v.Clear L functions uses := by
  have hsound := hv.sound h.prepared h.shows h.listed h.registered h.params h.fresh h.used
  refine ⟨⟨_, hsound⟩, (hv.starts h.grounded).1, ?_⟩
  cases hv with
  | body henter hbind =>
    obtain ⟨hlater, hs, hshows, he⟩ := h.enter henter
    obtain ⟨hsettled, -⟩ := hs.types.functionTypes _ _ _ he
    obtain ⟨hattainable, -⟩ := hlater.reached.functionTypes _ _ _ he
    have hclean := hshows.clean (List.forall_mem_cons.mpr ⟨nofun, h.only⟩)
    refine (clean_bindParams hs hshows.lt_size h.params ?_ hattainable hclean hbind hopen :)
    exact fun t ht => (hsettled t ht).2

/-- Control leaves the body of a function that was checked as it may. -/
private theorem delivers {span : Span} {i : Info} (h : Enterable L functions uses own σ header body st)
    (hrun : (functionWith options own { span } header body fun c frame => Check.block c frame body).run st =
      ((i, header', body'), st')) (hstop : st'.stop = none) :
    ∃ t, i.type = some t ∧ st'.store.Grounded ∧ st'.store.Delivers t body' := by
  have hwalks : Walks L own ⟨Expr.mentionsBlock body, _, []⟩
      (functionWith options own { span } header body fun c frame => Check.block c frame body) st _ :=
    walks_function h.prepared h.shows.lt_size h.shows h.listed h.registered h.params
      fun c' fr' => checks_blockOf body h.fresh c' fr' _
  obtain ⟨hgo, hannotated⟩ := (walks_iff hrun).mp hwalks
  obtain ⟨sig, params, returns, inner, hsig, -, hblock, hfits, hi'⟩ := hannotated hstop
  obtain ⟨entry, ps, st₁, st₂, st₃, henter, hbind, hbody, hi, -⟩ := functionWith_inv rfl hrun hstop
  have hstop₃ : st₃.stop = none := (conclude_opened hi hstop :)
  have hclear : Visit.Clear L functions uses
      ⟨⟨options, some entry.returns⟩, entry.frame, .block body, { st₂ with loops := [] }⟩ :=
    h.clear (Visit.Begins.body henter hbind : Visit.Begins options own header body st _)
      ((steady_block body).opened hbody hstop₃)
  have hsafe := safe_blockOf body hclear hbody hstop₃
  obtain ⟨hstays₃, left, hloops⟩ := (advances_block body _ _).of_run hbody
  obtain ⟨hgrounded₃, hstay₃⟩ := hstays₃ hclear.grounded
  obtain ⟨hgrounded, hstay⟩ := ((advances_conclude grounds_function).of_run hi).stays hgrounded₃
  -- the function has the signature that it was entered with
  have hreturns : entry.returns = returns := by
    obtain ⟨hlater, -, -, he⟩ := h.enter henter
    obtain ⟨-, hstay₂⟩ := ((advances_bindParams _ _ _).of_run hbind).stays hlater.reached
    have he' := ((hstay₂.trans hstay₃).trans hstay).same he rfl
    obtain ⟨j, r, hgives, rfl⟩ := conclude_inv hi hstop
    obtain rfl := Option.some.inj ((functionRule_type hgives.yields).symm.trans hi'.type)
    rw [he'] at hsig
    cases hsig
    rfl
  have hs := hgo.moves.sound.types
  refine ⟨sig, hi'.type, hgrounded, params, returns, hsig, fun tr x hpath => ⟨fun n hn hnever => ?_, ?_⟩⟩
  · obtain ⟨t, ht, hattainable⟩ := ((hsafe tr x hpath).attained n hn).stay hstay
    obtain rfl := Option.some.inj (ht.symm.trans hnever)
    exact hattainable.ne_never hs rfl
  · exact (hsafe tr x hpath).lawful hloops (congrArg some hreturns) hstay fun hD =>
      hblock.lawful hfits (hD.1.stay hstay) hs

end Enterable

/-- A nested function can be checked in a frame of its own. -/
private theorem Visit.Sound.enterable {c : Context} {info : Info} {σ : Scope}
    (hv : Visit.Sound L functions uses σ ⟨c, fr, .expr (.function info header body), st⟩)
    (hgrounded : st.store.Grounded)
    (hfunctions : ∀ v ∈ functions, v.kind.isFunction = true)
    (hnested : (attempt (enterNested fr header)).run st = (some own, st₁)) :
    Enterable L functions uses own [[header.binding], functions] header body st₁ := by
  obtain ⟨hr, ⟨b, hf⟩, hu⟩ := hv
  cases hf with
  | function hexported hparams hbody =>
    obtain ⟨hprepared, hshows, hlisted, hregistered⟩ := hr.nested hexported hnested
    have hlayers : ∀ layer ∈ [[header.binding], functions], ∀ v ∈ layer, v.kind.isFunction = true := by
      simp only [List.forall_mem_cons, List.not_mem_nil, false_implies, implies_true, and_true]
      exact ⟨rfl, hfunctions⟩
    have hstays := ((advances_attempt grounds_enterNested).of_run hnested).stays
    exact ⟨hprepared, hshows, hlayers, hlisted, hregistered, hparams, hbody, hu, (hstays hgrounded).1⟩

/-- A nested function that is walked through. -/
private theorem function_inv {c : Context} {info i : Info} (huntyped : info.type = none)
    (hrun : (Check.expr c fr (.function info header body)).run st = (.function i header' body', st'))
    (hstop : st'.stop = none) :
    ∃ own st₁, (attempt (enterNested fr header)).run st = (some own, st₁) ∧
      (functionWith c.options own info header body fun c frame => Check.block c frame body).run st₁ =
        ((i, header', body'), st') := by
  have hopen : st.stop = none := (steady_expr _).opened hrun hstop
  rw [Check.expr, run_open hopen (by exact skip_untyped huntyped)] at hrun
  obtain ⟨own, st₁, hnested, hrun⟩ := attempt_inv hrun hstop steady_pure
  obtain ⟨⟨j, header₁, body₁⟩, st₂, hfunction, hreturn⟩ := run_bind_inv hrun
  cases hreturn
  exact ⟨own, st₁, hnested, hfunction⟩

end

/-! ### Accepted functions -/

/-- A function of a compiled module that is accepted, in the module or inside of another function: it has got a type. -/
inductive Module.Accepts (m : Module) : TypeId → Block Expr → Prop where
  | declared {f : FunctionDecl} {t : TypeId} (hf : .function f ∈ m.decls) (ht : f.info.type = some t) :
      Accepts m t f.body
  | nested {f : FunctionDecl} {i : Info} {header : Header} {body : Block Expr} {t : TypeId} (hf : .function f ∈ m.decls)
      (hn : .function i header body ∈ Expr.nodesBlock f.body) (ht : i.type = some t) : Accepts m t body

private theorem isFunction_of_moduleFunctions {decls : List Decl} :
    ∀ v ∈ moduleFunctions decls, v.kind.isFunction = true := by
  have hbehind : ∀ seen, ∀ v ∈ functionsBehind seen decls, v.kind.isFunction = true := by
    induction decls with
    | nil => simp [functionsBehind]
    | cons d rest ih =>
      intro seen v hv
      rw [functionsBehind] at hv
      split at hv
      · exact ih seen v hv
      · rcases List.mem_append.mp hv with hv | hv
        · cases d with
          | struct d => cases hv
          | function f =>
            rw [List.mem_singleton.mp hv]
            rfl
        · exact ih _ v hv
  exact hbehind []

section

variable {options : Options} {decls : List Decl} {before behind done : List Item} {f : FunctionDecl} {p q q' : Progress}
  {file : SourceFile} {u : CompiledUnit} {m : Module} {v : Visit}

/-- Between the functions of a module, the store is grounded. -/
private theorem grounded_before {items : List Item}
    (hprepared : Phase.runAll options Phase.preparation (decls.map ({ decl := · })) { store := {} } = .ok (items, p))
    (hbefore : Phase.bodies.run options before p = .ok (done, q)) : q.store.Grounded :=
  ((Phase.stays_runAll hprepared).trans (Phase.stays_run hbefore) Store.grounded_initial).1

/-- A function of the module can be checked when a compilation comes to it. -/
private theorem enterable_before (hparsed : Parsed decls)
    (hprepared : Phase.runAll options Phase.preparation (decls.map ({ decl := · })) { store := {} } =
      .ok (before ++ ⟨.function f, false⟩ :: behind, p))
    (hbefore : Phase.bodies.run options before p = .ok (done, q)) (hrunning : q.halted = false) :
    Enterable (moduleListing decls) (moduleFunctions decls) (moduleUses decls) FrameId.module [moduleFunctions decls]
      f.header f.body { store := q.store } := by
  have hunderway := underway_before hparsed hprepared hbefore
  have hrest := hunderway.resting hrunning
  have howns : (Decl.function f).Owns decls := hunderway.owns hrunning _ List.mem_cons_self rfl
  have hmem : .function f ∈ decls := List.mem_of_find?_eq_some howns
  exact
    { prepared := hrest.prepared hparsed hmem List.mem_cons_self
      shows := hrest.module
      only := by simpa using isFunction_of_moduleFunctions
      listed := hparsed.lists_header hmem
      registered := hrest.functions f howns
      params := hparsed.params f hmem
      fresh := hparsed.body f hmem
      used := fun use huse => List.mem_flatMap.mpr ⟨_, hmem, huse⟩
      grounded := grounded_before hprepared hbefore }

theorem Visit.Reached.grounded (h : v.Reached options decls) : v.state.store.Grounded := by
  cases h with
  | inside hprepared hbefore hrunning hbegins hsteps =>
    have hstart := (hbegins.starts (grounded_before hprepared hbefore)).1
    induction hsteps with
    | refl => exact hstart
    | tail _ hstep ih => exact (hstep.starts ih).1

/-- From the end of a function of the module, the store stays until the end of the compilation. -/
private theorem stays_behind (hdecls : file.declarations = .ok decls) (hcompile : file.compile options = .ok u)
    (hm : u.module = some m)
    (hprepared : Phase.runAll options Phase.preparation (decls.map ({ decl := · })) { store := {} } =
      .ok (before ++ ⟨.function f, false⟩ :: behind, p))
    (hbefore : Phase.bodies.run options before p = .ok (done, q)) (hrunning : q.halted = false) :
    ((functionWith options FrameId.module f.info f.header f.body
      fun c frame => Check.block c frame f.body).run { store := q.store }).2.store.Stays m.store := by
  obtain ⟨items, p', items', r, hprepared', -, hbodies, -, hstore⟩ := SourceFile.items_of_compile hdecls hcompile hm
  rw [hprepared] at hprepared'
  cases hprepared'
  obtain ⟨done', last, q₁, hbefore', hlast⟩ := Phase.run_append_inv hbodies
  rw [hbefore] at hbefore'
  cases hbefore'
  obtain ⟨item, rest, q₂, hstep, hrest, -⟩ := Phase.run_cons_inv hlast
  rw [← bodies_step_store hrunning hstep, hstore]
  exact Phase.stays_run hrest

theorem Visit.Reached.stays (hdecls : file.declarations = .ok decls) (hcompile : file.compile options = .ok u)
    (hm : u.module = some m) (h : v.Reached options decls) : v.after.store.Stays m.store := by
  have hparsed := file.parsed_of_declarations hdecls
  cases h with
  | @inside _ _ _ f _ _ _ hprepared hbefore hrunning hbegins hsteps =>
    have hmem : .function f ∈ decls :=
      List.mem_of_find?_eq_some ((underway_before hparsed hprepared hbefore).owns hrunning _ List.mem_cons_self rfl)
    have huntyped : f.info.type = none := by rw [hparsed.untyped f hmem]
    have hend := stays_behind hdecls hcompile hm hprepared hbefore hrunning
    have hstart := (Resumes.stays (behind_body huntyped hbegins)).trans hend
    induction hsteps with
    | refl => exact hstart
    | tail _ hstep ih => exact hstep.stays.trans ih

/-- A function of the module that is accepted. -/
private theorem delivers_declared {t : TypeId} (hdecls : file.declarations = .ok decls)
    (hcompile : file.compile options = .ok u)
    (hm : u.module = some m) (hf : .function f ∈ m.decls) (ht : f.info.type = some t) : m.store.Delivers t f.body := by
  have hparsed := file.parsed_of_declarations hdecls
  obtain ⟨items, p, items', r, hprepared, hitems, hbodies, hmdecls, -⟩ := SourceFile.items_of_compile hdecls hcompile hm
  rw [hmdecls] at hf
  obtain ⟨item', hitem', hdecl⟩ := List.mem_map.mp hf
  obtain ⟨before, item, behind, done, q, q', rfl, hbefore, hstep⟩ := Phase.mem_run_inv hbodies hitem'
  have hparsedMem : ∀ f₀, item.decl = .function f₀ → .function f₀ ∈ decls := by
    intro f₀ h
    rw [← hitems, ← h]
    exact List.mem_map_of_mem (by simp)
  rcases bodies_step_cases hstep hdecl with hsame | ⟨hrunning, f₀, st, rfl, hrun⟩
  · -- a function that is not checked has no type
    rw [hparsed.untyped f (hparsedMem f (hsame ▸ hdecl))] at ht
    cases ht
  · have hinfo := hparsed.untyped f₀ (hparsedMem f₀ rfl)
    have huntyped : f₀.info.type = none := by rw [hinfo]
    have hstop : st.stop = none := by
      rcases functionWith_cases huntyped hrun with ⟨hsame, -⟩ | ⟨halive, -⟩
      · rw [hsame, huntyped] at ht
        cases ht
      · exact halive (by rw [ht]; rfl)
    have hend := stays_behind hdecls hcompile hm hprepared hbefore hrunning
    rw [hrun] at hend
    rw [hinfo] at hrun
    obtain ⟨t', ht', hgrounded, hdelivers⟩ := (enterable_before hparsed hprepared hbefore hrunning).delivers hrun hstop
    obtain rfl := Option.some.inj (ht.symm.trans ht')
    exact hdelivers.stay (hend hgrounded).2

/-- A nested function that is accepted. -/
private theorem delivers_nested {i : Info} {header : Header} {body : Block Expr} {t : TypeId}
    (hdecls : file.declarations = .ok decls) (hcompile : file.compile options = .ok u) (hm : u.module = some m)
    (hf : .function f ∈ m.decls) (hn : .function i header body ∈ Expr.nodesBlock f.body) (ht : i.type = some t) :
    m.store.Delivers t body := by
  have hparsed := file.parsed_of_declarations hdecls
  have htyped : (Expr.function i header body).info.type.isSome = true := by
    rw [show (Expr.function i header body).info = i from rfl, ht]
    rfl
  obtain ⟨v, hreached, hfinds⟩ := reached_of_typed hdecls hcompile hm hf hn htyped
  cases hfinds with
  | @expr c fr st st' e _ hrun hstop =>
    obtain ⟨σ, hsound⟩ := hreached.sound hparsed
    obtain ⟨b, hfresh⟩ := hsound.fresh
    have hend := hreached.stays hdecls hcompile hm
    rw [show (Visit.after ⟨c, fr, .expr e, st⟩) = st' by unfold Visit.after; dsimp only; rw [hrun]] at hend
    cases Expr.walked hfresh.untyped hrun hstop with
    | @function info _ header₀ body₀ =>
      obtain ⟨own, st₁, hnested, hfunction⟩ := function_inv hfresh.untyped hrun hstop
      have henterable := hsound.enterable hreached.grounded isFunction_of_moduleFunctions hnested
      cases hfresh with
      | function =>
        obtain ⟨t', ht', hgrounded, hdelivers⟩ := henterable.delivers hfunction hstop
        obtain rfl := Option.some.inj (ht.symm.trans ht')
        exact hdelivers.stay (hend hgrounded).2

end

/--
Soundness of the type `never`.  No control path through the body of an accepted function completes an expression of that
type.  Control leaves the body with a result that fits the function, by a return or behind the last expression, or not
at all; only where the function gives no value, it may do so without a result.
-/
theorem never_completes (file : SourceFile) (options : Options) (u : CompiledUnit) (m : Module) (t : TypeId)
    (body : Block Expr) (hcompile : file.compile options = .ok u) (hm : u.module = some m)
    (haccepts : m.Accepts t body) :
    ∃ params returns, m.store.typeAt? t = some (.function params returns) ∧ ∀ tr x, Expr.pathsBlock body tr x →
      (∀ n ∈ tr, n.info.type ≠ some TypeId.never) ∧ x.Lawful m.store returns body := by
  obtain ⟨decls, hdecls, -⟩ := SourceFile.declarations_of_compile hcompile hm
  cases haccepts with
  | declared hf ht => exact delivers_declared hdecls hcompile hm hf ht
  | nested hf hn ht => exact delivers_nested hdecls hcompile hm hf hn ht

/-- A binding that is never reached, in a loop that is left by a jump. -/
def deadBinding : SourceFile :=
  ⟨"dead", "fn f(a:i32)->i32{loop{if a==1{let x=return a;}break;}a}".toList⟩

/-- The function with the binding is accepted, and leaves with a result. -/
theorem never_completes_deadBinding : ∃ u m t body params returns, deadBinding.compile {} = .ok u ∧ u.module = some m ∧
    m.Accepts t body ∧ m.store.typeAt? t = some (.function params returns) ∧ ∀ tr x, Expr.pathsBlock body tr x →
      (∀ n ∈ tr, n.info.type ≠ some TypeId.never) ∧ x.Lawful m.store returns body := by
  have htyped : ((deadBinding.compile {}).toOption.bind (·.module)).map (fun m =>
      m.decls.any fun d => Decl.rec (fun _ => false) (fun f => f.info.type.isSome) d) = some true := by
    decide +kernel
  cases hcompile : deadBinding.compile {} with
  | error f =>
    rw [hcompile] at htyped
    cases htyped
  | ok u =>
    rw [hcompile] at htyped
    obtain ⟨m, hm, hany⟩ := Option.map_eq_some_iff.mp htyped
    obtain ⟨d, hd, hsome⟩ := List.any_eq_true.mp hany
    cases d with
    | struct d => cases hsome
    | function f =>
      obtain ⟨t, ht⟩ := Option.isSome_iff_exists.mp hsome
      have haccepts : m.Accepts t f.body := .declared hd ht
      obtain ⟨params, returns, he, hpaths⟩ := never_completes deadBinding {} u m t f.body hcompile hm haccepts
      exact ⟨u, m, t, f.body, params, returns, rfl, hm, haccepts, he, hpaths⟩

end RainCheck
