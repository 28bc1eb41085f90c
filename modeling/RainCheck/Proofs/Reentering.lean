import RainCheck.Proofs.Retried

/-!
# Entering functions again

A function that is checked again is entered with the type that it has got before, and its parameters are declared anew.
-/

namespace RainCheck

open Check RainCheck.Action

section

variable {L : Listing} {fr own : FrameId} {header : Header} {d : Diagnostic} {s s' : Store}

private theorem nest_not_refused : (nest fr).run.run s ≠ (.error (.refused d), s') := by
  intro h
  unfold nest at h
  rcases ended_bind h with h | ⟨_, _, -, h⟩
  · cases h
  rcases ended_bind h with h | ⟨_, _, -, h⟩
  · exact lift_not_refused h
  rcases ended_bind h with h | ⟨_, _, -, h⟩
  · cases h
  · cases h

/-- A function is refused when it is entered if its type cannot be resolved. -/
private theorem refused_enterFunction (h : (enterFunction fr header).run.run s = (.error (.refused d), s')) :
    (resolveSignature fr header.span header.prototype).run.run s = (.error (.refused d), s') := by
  unfold enterFunction at h
  rcases ended_bind h with h | ⟨sig, s₁, -, h⟩
  · exact h
  exfalso
  rcases ended_bind h with h | ⟨e, _, -, h⟩
  · rcases ended_bind h with h | ⟨_, _, -, h⟩
    · cases h
    · exact lift_not_refused h
  cases e with
  | function params returns =>
    rcases ended_bind h with h | ⟨_, _, -, h⟩
    · exact nest_not_refused h
    · cases h
  | _ => cases h

private theorem run_enterFunction_refused
    (h : (resolveSignature fr header.span header.prototype).run.run s = (.error (.refused d), s')) :
    (enterFunction fr header).run.run s = (.error (.refused d), s') := by
  unfold enterFunction
  rw [run_bind, h]

end

section

variable {L : Listing} {functions : List Variable} {fr own own₂ : FrameId} {st st' st₁ st₂ σ : CheckState}
  {options : Options} {info i : Info} {header header' : Header} {body body' : Block Expr} {d : Diagnostic}

private theorem bindParams_declared {params params' : List Param} {types : List TypeId}
    (hrun : (bindParams fr params types).run st = (params', st')) :
    params'.map (·.declared) = params.map (·.declared) := by
  induction params generalizing types st params' with
  | nil =>
    cases hrun
    rfl
  | cons p params ih =>
    cases types with
    | nil =>
      obtain ⟨_, _, -, hreturn⟩ := run_bind_inv hrun
      cases hreturn
      rfl
    | cons t types =>
      cases hopen : st.stop with
      | some why =>
        cases (@run_ended _ _ _ _ _ id hopen rfl).symm.trans hrun
        rfl
      | none =>
        rw [bindParams] at hrun
        replace hrun := (@run_open _ _ _ _ id hopen rfl).symm.trans hrun
        obtain ⟨_, st₁, -, hrun⟩ := run_bind_inv hrun
        obtain ⟨rest, _, hrest, hreturn⟩ := run_bind_inv hrun
        cases hreturn
        rw [List.map_cons, List.map_cons, ih hrest]

/-- A function stands for the same variable after it is checked. -/
theorem functionWith_binding (huntyped : info.type = none)
    (hrun : (functionWith options own info header body fun c frame => Check.block c frame body).run st =
      ((i, header', body'), st')) : header'.binding = header.binding := by
  rcases functionWith_run huntyped hrun with ⟨-, -, rfl, -⟩ | ⟨entry, params, _, _, _, -, hbind, -, -, rfl⟩
  · rfl
  · simp only [Header.binding, Header.prototype, bindParams_declared hbind]

private theorem functionWith_untyped (huntyped : info.type = none)
    (hrun : (functionWith options own info header body fun c frame => Check.block c frame body).run st =
      ((i, header', body'), st')) (hstop : st'.stop = some (.refused d)) : i = info := by
  rcases functionWith_run huntyped hrun with ⟨-, rfl, -, -⟩ | ⟨_, _, _, _, _, -, -, -, hi, -⟩
  · rfl
  · exact conclude_stopped hi hstop

/-- A function contains the binding of its parameters. -/
private theorem contains_bindParams (options : Options) (body : Block Expr) {entry : Entry}
    (huntyped : info.type = none)
    (henter : (attempt (enterFunction own header)).run st = (some entry, st₁)) :
    Contains (functionWith options own info header body fun c frame => Check.block c frame body) st
      (bindParams entry.frame header.params entry.params) st₁ := by
  unfold functionWith
  rw [huntyped]
  refine contains_later henter (contains_first fun _ => ?_)
  refine Steady.bind (steady_same fun _ => ⟨rfl, rfl⟩) fun _ =>
    Steady.bind (steady_same fun _ => ⟨rfl, rfl⟩) fun _ => ?_
  exact (steady_block _).bind fun _ => Steady.bind (steady_same fun _ => ⟨rfl, rfl⟩) fun _ => steady_node

/-- What is known about a function when it is checked. -/
structure CheckState.Enters (L : Listing) (functions : List Variable) (own : FrameId)
    (header : Header) (body : Block Expr)
    (st : CheckState) : Prop where
  opened : st.stop = none
  prepared : Prepared L functions (Expr.mentionsBlock body) st
  shows : ∃ scope, st.store.Shows own scope
  listed : L.Lists header.mentions
  registered : (st.store.function header.span).variableType.isSome = true
  params : ∀ p ∈ header.params, p.Fresh
  body : (Expr.block body).Fresh false
  inner : st.store.Inner own fun key => st.store.Resolved key ∨ key = header.span

/-- What is known when the function is checked again. -/
structure CheckState.Reenters (L : Listing) (functions : List Variable) (own own₂ : FrameId) (st st' σ : CheckState) :
    Prop where
  opened : σ.stop = none
  sound : σ.Sound L
  grows : st'.store.GrowsTo σ.store
  module : σ.store.Shows FrameId.module [functions]
  shows : ∃ scope, σ.store.Shows own₂ scope
  inner : σ.store.Inner own₂ fun _ => True
  sees : ∀ name, σ.store.Sees own₂ name → st.store.Sees own name

/-- A function that is entered has its type, and an empty frame for its parameters. -/
structure CheckState.Entered (L : Listing) (own : FrameId) (header : Header) (entry : Entry) (st st₁ : CheckState) :
    Prop where
  alive : st₁.stop = none
  loops : st₁.loops = st.loops
  grows : st.store.GrowsTo st₁.store
  sound : st₁.Sound L
  signature : (st₁.store.function header.span).signature = some entry.signature
  type : st₁.store.typeAt? entry.signature = some (.function entry.params entry.returns)
  length : entry.params.length = header.params.length
  frame : ∃ outer, st₁.store.frame? entry.frame = some { outer }
  local_frame : entry.frame ≠ FrameId.module
  inner : st₁.store.Inner entry.frame st₁.store.Resolved
  sees : ∀ name, st.store.Sees own name → st₁.store.Sees entry.frame name

private theorem CheckState.Enters.entered {entry : Entry} (he : st.Enters L functions own header body)
    (henter : (attempt (enterFunction own header)).run st = (some entry, st₁)) :
    st.Entered L own header entry st₁ := by
  have hgives := attempt_gives henter
  obtain ⟨scope, hshows⟩ := he.shows
  obtain ⟨hprototype, hmentions⟩ := Listing.lists_cons.mp he.listed
  obtain ⟨s₁, f, hsig, htype, hf, hframe, hstore⟩ := enterFunction_inv hgives.yields
  obtain ⟨hs₁, hlearns, hsignature⟩ := Ends.yielded (ends_signature he.prepared.sound.store he.prepared.sound.idle
    hshows.lt_size hprototype hmentions he.registered) hsig
  have hg₁ : s₁.GrowsTo st₁.store := by
    rw [hstore]
    exact Store.extends_addFrame.toGrowsTo
  have hresolved : s₁.Resolved header.span := Option.isSome_iff_exists.mpr ⟨_, hsignature⟩
  -- the function itself is resolved now, beside those that were
  have hinner : s₁.Inner own s₁.Resolved := by
    refine (he.inner.mono fun key hkey => ?_).declare hlearns.toGrowsTo (hlearns.leaves own)
      (hlearns.adds own) (by simp)
    rcases hkey with hkey | rfl
    · exact hkey.grow hlearns.toGrowsTo
    · exact hresolved
  obtain ⟨params, returns, htype', hlength⟩ := hs₁.functions.signature _ _ hsignature
  cases htype.symm.trans htype'
  have hprototype : L.prototype header.span = header.prototype := hprototype
  exact {
    alive := hgives.alive
    loops := hgives.loops
    grows := hlearns.toGrowsTo.trans hg₁
    sound := ⟨hstore ▸ hs₁.addFrame hf, hstore ▸ hlearns.toExtends.idle he.prepared.sound.idle, by simp [hgives.alive]⟩
    signature := by rw [hstore]; exact hsignature
    type := by rw [hstore]; exact htype
    length := by rw [hlength, hprototype]; simp [Header.prototype]
    frame := ⟨own :: f.outer, by rw [hstore, hframe, Store.frame?_addFrame, if_pos rfl]⟩
    local_frame := by rw [hframe]; exact Nat.ne_of_gt hs₁.frames.module_lt
    inner := by
      rw [hstore, hframe]
      exact hinner.nest hf
    sees := fun name hname => by
      rw [hstore, hframe]
      exact (hinner.sees_nest hf).mpr (hname.grow hlearns.toGrowsTo) }

/-- A function that was entered is entered again with its type. -/
private theorem CheckState.Reenters.enter {entry : Entry} {header₂ : Header}
    (hw : CheckState.Reenters L functions own own₂ st st' σ)
    (h₁ : st.Entered L own header entry st₁) (hg : st₁.store.GrowsTo σ.store)
    (hbinding : header₂.binding = header.binding) :
    ∃ f₂, σ.store.frame? own₂ = some f₂ ∧
      (attempt (enterFunction own₂ header₂)).run σ =
      (some { entry with frame := σ.store.frames.size }, σ.nest own₂ f₂) := by
  obtain ⟨scope, hshows⟩ := hw.shows
  obtain ⟨f₂, -, hf₂⟩ := Store.get_frame hshows.lt_size
  have hspan : header₂.span = header.span := congrArg Variable.span hbinding
  have hsig : (σ.store.function header₂.span).signature = some entry.signature := by
    rw [hspan]
    exact (hg.functions _).signature _ h₁.signature
  refine ⟨f₂, hf₂, ?_⟩
  rw [run_attempt hw.opened, run_enterFunction hsig (hg.same h₁.type rfl) hf₂]
  rfl

private theorem functionWith_refused {why : Stop} (huntyped : info.type = none)
    (h : (attempt (enterFunction own header)).run st = (none, { st with stop := some why })) :
    ((functionWith options own info header body fun c frame => Check.block c frame body).run st).2 =
      { st with stop := some why } := by
  unfold functionWith
  rw [huntyped]
  exact congrArg Prod.snd (run_bind_of h)

/-- The frame of a function with its parameters. -/
private theorem CheckState.Entered.bound {entry : Entry} {params : List Param} (h₁ : st.Entered L own header entry st₁)
    (hparams : ∀ p ∈ header.params, p.Fresh)
    (hbind : (bindParams entry.frame header.params entry.params).run st₁ = (params, st₂)) (halive : st₂.stop = none) :
    st₂.store.Inner entry.frame st₂.store.Resolved ∧
      ∀ name, (st.store.Sees own name ∨ ∃ p ∈ header.params, p.binding.name = name) →
        st₂.store.Sees entry.frame name := by
  obtain ⟨outer, hframe⟩ := h₁.frame
  have hsettled := (h₁.sound.store.types.functionTypes _ _ _ h₁.type).1
  obtain ⟨hgo, -⟩ := (walks_iff hbind).mp (walks_bindParams h₁.sound (Store.frame_lt_size hframe) hparams
    (fun t ht => (hsettled t ht).2) h₁.length)
  have hkinds : ∀ x ∈ header.params.map (·.binding), x.kind.isFunction = true → st₂.store.Resolved x.span := by
    intro x hx hfunction
    obtain ⟨p, hp, rfl⟩ := List.mem_map.mp hx
    rw [(hparams p hp).1] at hfunction
    cases hfunction
  refine ⟨(h₁.inner.mono fun _ => .grow hgo.grows).declare hgo.grows hgo.moves.leaves (hgo.adds halive) hkinds, ?_⟩
  rintro name (hname | ⟨p, hp, rfl⟩)
  · exact (h₁.sees name hname).grow hgo.grows
  · exact h₁.inner.sees_declared h₁.local_frame hgo.grows (hgo.adds halive) (List.mem_map_of_mem hp)

/-- The frame of a function that is entered again, with its parameters. -/
private theorem CheckState.Reenters.bound {entry : Entry} {params : List Param}
    (hw : CheckState.Reenters L functions own own₂ st st' σ) (h₁ : st.Entered L own header entry st₁)
    (hparams : ∀ p ∈ header.params, p.Fresh) (hg : st₁.store.GrowsTo σ.store)
    (hbind : (bindParams entry.frame header.params entry.params).run st₁ = (params, st₂)) :
    ∃ f₂ params₂ σ₂,
      (attempt (enterFunction own₂ { header with params })).run σ =
        (some { entry with frame := σ.store.frames.size }, σ.nest own₂ f₂) ∧
      (bindParams σ.store.frames.size params entry.params).run (σ.nest own₂ f₂) = (params₂, σ₂) ∧
      σ₂.stop = st₂.stop ∧ σ.store.Moves L σ.store.frames.size [] σ₂.store ∧
      (st₂.stop = none → (∃ scope, σ₂.store.Shows σ.store.frames.size scope) ∧
        (σ₂.store.Inner σ.store.frames.size fun _ => True) ∧
        ∀ name, σ₂.store.Sees σ.store.frames.size name →
          σ.store.Sees own₂ name ∨ ∃ p ∈ header.params, p.binding.name = name) := by
  have hbinding : Header.binding { header with params } = header.binding := by
    simp only [Header.binding, Header.prototype, bindParams_declared hbind]
  obtain ⟨f₂, hf₂, henter₂⟩ := hw.enter h₁ hg hbinding
  obtain ⟨outer, hframe⟩ := h₁.frame
  obtain ⟨scope, hshows⟩ := hw.shows
  have hmoves : σ.store.Moves L σ.store.frames.size [] (σ.nest own₂ f₂).store := .addFrame hw.sound.store hf₂
  have hframe₂ : (σ.nest own₂ f₂).store.frame? σ.store.frames.size = some { outer := own₂ :: f₂.outer } := by
    rw [CheckState.nest, Store.frame?_addFrame, if_pos rfl]
  have hsettled : ∀ t ∈ entry.params, (σ.nest own₂ f₂).store.Settled t := fun t ht =>
    (hg.trans hmoves.toGrowsTo).settled ((h₁.sound.store.types.functionTypes _ _ _ h₁.type).1 t ht).2
  obtain ⟨params₂, σ₂, hbind₂, hstop₂, -, hmoves₂, hadds₂⟩ := bindParams_again (σ := σ.nest own₂ f₂) h₁.alive hw.opened
    ⟨hmoves.sound, hmoves.toExtends.idle hw.sound.idle, hw.sound.faultless⟩ hframe hframe₂
    (fun _ => rfl) hparams hsettled
    h₁.length hbind
  refine ⟨f₂, params₂, σ₂, henter₂, hbind₂, hstop₂, hmoves.trans hmoves₂, fun halive => ⟨?_, ?_, fun name hname => ?_⟩⟩
  · exact ⟨_, (hshows.nest hf₂).declare hmoves.sound.frames hmoves₂.toGrowsTo hmoves₂.leaves (hadds₂ halive)⟩
  · exact (hw.inner.nest hf₂).declare hmoves₂.toGrowsTo hmoves₂.leaves (hadds₂ halive) fun _ _ _ => trivial
  -- a name that is seen inside was seen outside or is that of a parameter
  · rcases hname.of_adds (hw.inner.nest hf₂) hmoves₂.toGrowsTo hmoves₂.leaves (hadds₂ halive) with h | ⟨x, hx, rfl⟩
    · exact .inl ((hw.inner.sees_nest hf₂).mp h)
    · obtain ⟨p, hp, rfl⟩ := List.mem_map.mp hx
      exact .inr ⟨p, hp, rfl⟩

private theorem run_modify (change : CheckState → CheckState) (st : CheckState) :
    (modify change : Check PUnit).run st = (⟨⟩, change st) := rfl

private theorem run_functionWith (options : Options) {entry : Entry} {params : List Param} {st₃ : CheckState}
    (huntyped : info.type = none)
    (henter : (attempt (enterFunction own header)).run st = (some entry, st₁))
    (hbind : (bindParams entry.frame header.params entry.params).run st₁ = (params, st₂))
    (hbody : (Check.block ⟨options, some entry.returns⟩ entry.frame body).run { st₂ with loops := [] } = (body', st₃)) :
    (functionWith options own info header body fun c frame => Check.block c frame body).run st =
      (do return (← conclude info (functionRule info body' entry), { header with params }, body') :
        Check (Info × Header × Block Expr)).run { st₃ with loops := st₂.loops } := by
  unfold functionWith
  rw [huntyped]
  refine (run_bind_of henter).trans ?_
  dsimp only
  rw [run_bind_of hbind, run_bind_of (run_state st₂), run_bind_of (run_modify _ _), run_bind_of hbody,
    run_bind_of (run_modify _ _)]
  rfl

/-- A function whose type could not be resolved cannot be entered later. -/
private theorem CheckState.Enters.refused_again (he : st.Enters L functions own header body)
    (henter : (attempt (enterFunction own header)).run st = (none, st')) (hstop : st'.stop = some (.refused d))
    (hg : st'.store.GrowsTo σ.store) (hopened : σ.stop = none) :
    (attempt (enterFunction own₂ header)).run σ = (none, { σ with stop := some (.refused d) }) := by
  obtain ⟨scope, hshows⟩ := he.shows
  obtain ⟨hprototype, hmentions⟩ := Listing.lists_cons.mp he.listed
  have hrepeats : Repeats (fun _ => True) st.store (resolveSignature own header.span header.prototype)
      (resolveSignature own₂ header.span header.prototype) :=
    repeats_resolveSignature he.prepared.sound.store he.prepared.sound.idle hshows.lt_size hprototype hmentions
      he.registered
  have hrefused := refused_enterFunction (attempt_refused he.opened henter hstop)
  have hagain := (hrepeats _ _ hrefused (by simp)).2 σ.store hg trivial
  rw [run_attempt hopened, run_enterFunction_refused hagain]

/-- A function whose body was of another type than it has to be is refused for that when it is entered again. -/
private theorem functionWith_concluded_again {entry : Entry} {params : List Param} {g : FrameId} {σ₁ σ₂ : CheckState}
    (huntyped : info.type = none) (hi : (conclude info (functionRule info body entry)).run st₁ = (i, st'))
    (hended : st₁.stop = none) (hstop : st'.stop = some (.refused d)) (hbody : (Part.block body).Typed st₁.store)
    (henter : (attempt (enterFunction own₂ header)).run σ = (some { entry with frame := g }, σ₁))
    (hbind : (bindParams g header.params entry.params).run σ₁ = (params, σ₂)) (hopened : σ₂.stop = none)
    (hg : st'.store.GrowsTo σ₂.store) :
    ((functionWith options own₂ info header body fun c frame => Check.block c frame body).run σ).2 =
      { σ₂ with stop := st'.stop } := by
  have hagain := conclude_again (Q := fun _ => True) repeats_functionRule hended hi (by simp [hstop]) hopened hg trivial
  exact congrArg Prod.snd
    ((run_functionWith options huntyped henter hbind (run_typed_block hbody)).trans (run_bind_of hagain))

/-- A function that was refused is refused again. -/
theorem functionWith_again {g : FrameId} (huntyped : info.type = none) (he : st.Enters L functions own header body)
    (hw : CheckState.Reenters L functions own own₂ st st' σ)
    (honce : ∀ n ∈ Expr.nodesBlock body, ∀ x ∈ n.declared, d ≠ ⟨x.span, .duplicateDeclaration x.name⟩)
    (ih : ∀ v, Visit.Begins options own header body st v → v.Retries L functions)
    (hrun : (functionWith options own info header body fun c frame => Check.block c frame body).run st =
      ((i, header', body'), st')) (hstop : st'.stop = some (.refused d)) :
    ((functionWith options own₂ i header' body' fun c frame => Check.block c frame body').run σ).2.stop =
        some (.refused d) ∧
      σ.store.Moves L g []
        ((functionWith options own₂ i header' body' fun c frame => Check.block c frame body').run σ).2.store := by
  obtain rfl := functionWith_untyped huntyped hrun hstop
  obtain ⟨scope, hshows⟩ := he.shows
  rcases functionWith_run huntyped hrun with
    ⟨henter, -, rfl, rfl⟩ | ⟨entry, params, st₁, st₂, st₃, henter, hbind, hbody, hi, rfl⟩
  · -- its type cannot be resolved
    have henter₂ : (attempt (enterFunction own₂ header')).run σ = (none, { σ with stop := some (.refused d) }) :=
      he.refused_again henter hstop hw.grows hw.opened
    rw [functionWith_refused huntyped henter₂]
    exact ⟨rfl, .refl hw.sound.store⟩
  have h₁ := he.entered henter
  obtain ⟨outer, hframe⟩ := h₁.frame
  have hbegins : Visit.Begins options own header body st _ := .body henter hbind
  have hs := hbegins.sound he.prepared hshows he.listed he.registered he.params he.body fun u h => h
  have hg₁ : st₁.store.GrowsTo st₂.store := bindParams_grows hframe hbind
  have hg₂ : st₂.store.GrowsTo st₃.store := (gives_block hbody).2 ▸ hs.goes.1.grows
  have hg₃ : ({ st₃ with loops := st₂.loops } : CheckState).store.GrowsTo st'.store :=
    conclude_grows (Q := fun _ => True) repeats_functionRule hi (by simp [hstop])
  obtain ⟨f₂, params₂, σ₂, henter₂, hbind₂, hstop₂, hmoves₂, hbound₂⟩ :=
    hw.bound h₁ he.params ((hg₁.trans (hg₂.trans hg₃)).trans hw.grows) hbind
  have hbegins₂ : Visit.Begins options own₂ { header with params } body' σ _ := .body henter₂ hbind₂
  cases halive : st₂.stop with
  | some why =>
    -- one of its parameters is declared twice
    have hends := contains_bindParams options body huntyped henter why (by rw [hbind, halive])
    rw [hrun, hstop] at hends
    obtain rfl : why = .refused d := (Option.some.inj hends.1).symm
    obtain ⟨hstop', hstore'⟩ := contains_bindParams options body' huntyped henter₂ (.refused d)
      (by rw [hbind₂, hstop₂, halive])
    rw [hstop', hstore', hbind₂]
    exact ⟨rfl, hmoves₂.before le_rfl⟩
  | none =>
    obtain ⟨hshows₂, hinner₂, hsees₂⟩ := hbound₂ halive
    obtain ⟨hinner, hsees⟩ := h₁.bound he.params hbind halive
    cases hended : st₃.stop with
    | none =>
      -- its body is of another type than it has to be
      have hbody₂ : (Part.block body').Typed st₃.store := by
        have htyped := hs.goes.2
        rw [(gives_block hbody).1, (gives_block hbody).2] at htyped
        exact htyped hended
      rw [functionWith_concluded_again huntyped hi hended hstop hbody₂ henter₂ hbind₂ (hstop₂.trans halive)
        (hw.grows.trans hmoves₂.toGrowsTo)]
      exact ⟨hstop, hmoves₂.before le_rfl⟩
    | some why =>
      -- there is a problem in its body
      obtain ⟨hends, hstore⟩ := hbegins.contained huntyped why (by rw [(gives_block hbody).2, hended])
      rw [hrun, hstop] at hends
      rw [hrun, (gives_block hbody).2] at hstore
      obtain rfl : why = .refused d := (Option.some.inj hends).symm
      have hfails : Visit.Fails L functions _ d :=
        ⟨⟨_, _, hs⟩, halive, by rw [(gives_block hbody).2, hended], hinner, honce⟩
      have hresumes : Visit.Resumes L functions
          ⟨⟨options, some entry.returns⟩, entry.frame, .block body, { st₂ with loops := [] }⟩
          ⟨⟨options, some entry.returns⟩, σ.store.frames.size, .block body', { σ₂ with loops := [] }⟩ := {
        context := rfl
        part := (gives_block hbody).1.symm
        opened := hstop₂.trans halive
        sound := ⟨hmoves₂.sound, hmoves₂.toExtends.idle hw.sound.idle, by simp [hstop₂, halive]⟩
        grows := by rw [(gives_block hbody).2, ← hstore]; exact hw.grows.trans hmoves₂.toGrowsTo
        module := hw.module.before hw.sound.store.frames hmoves₂.leaves hw.sound.store.frames.module_lt
        shows := hshows₂
        inner := hinner₂
        sees := fun name hname => hsees name ((hsees₂ name hname).imp_left (hw.sees name))
        loops := rfl }
      have hrefuses := ih _ hbegins d _ hfails hresumes
      obtain ⟨hstop', hstore'⟩ := hbegins₂.contained huntyped _ hrefuses.stop
      rw [hstop', hstore']
      exact ⟨rfl, (hmoves₂.trans hrefuses.moves).before le_rfl⟩

private theorem CheckState.Enters.grows {span : Span} {r : Info × Header × Block Expr}
    (he : st.Enters L functions own header body)
    (hrun : (functionWith options own { span } header body fun c frame => Check.block c frame body).run st = (r, st')) :
    st.store.GrowsTo st'.store := by
  obtain ⟨scope, hshows⟩ := he.shows
  have hwalks : Walks L own ⟨Expr.mentionsBlock body, _, []⟩
      (functionWith options own { span } header body fun c frame => Check.block c frame body) st _ :=
    walks_function he.prepared hshows.lt_size hshows he.listed he.registered he.params
      fun c' fr' => checks_blockOf body he.body c' fr' _
  exact ((walks_iff hrun).mp hwalks).1.grows

/-! ### Nested functions -/

/-- The own frame of a nested function has its name only. -/
private theorem Store.inner_withOwn {s : Store} {m : Frame} (hm : s.frame? FrameId.module = some m)
    (hmodule : s.Within FrameId.module []) :
    ((s.withOwn m header).Inner s.frames.size fun key => key = header.span) ∧
      ∀ name, (s.withOwn m header).Sees s.frames.size name ↔ name = header.name := by
  obtain ⟨m', hm', houter⟩ := hmodule
  cases hm.symm.trans hm'
  have houter : m.outer = [FrameId.builtin] := (List.cons.inj houter).2
  have hown : (s.withOwn m header).frame? s.frames.size =
      some { outer := [FrameId.module, FrameId.builtin], values := [(header.name, header.binding)] } := by
    have hadd : (s.addFrame (FrameId.module :: m.outer)).frame? s.frames.size =
        some { outer := FrameId.module :: m.outer } := by
      rw [Store.frame?_addFrame, if_pos rfl]
    rw [Store.withOwn, Store.frame?_addVariable hadd, if_pos rfl, houter]
    rfl
  have hwithin : (s.withOwn m header).Within s.frames.size [s.frames.size] := ⟨_, hown, rfl⟩
  refine ⟨⟨_, hwithin, fun g hg => ?_⟩, fun name => ⟨?_, ?_⟩⟩
  · obtain rfl := List.mem_singleton.mp hg
    refine ⟨_, hown, rfl, fun p hp _ => ?_⟩
    obtain rfl := List.mem_singleton.mp hp
    rfl
  · rintro ⟨gs, hgs, g, hg, f, hf, hfound⟩
    cases hwithin.unique hgs
    obtain rfl := List.mem_singleton.mp hg
    cases hown.symm.trans hf
    obtain ⟨x, hx⟩ := Option.isSome_iff_exists.mp hfound
    have hmem := Store.mem_of_lookup hx
    exact (Prod.mk.inj (List.mem_singleton.mp hmem)).1
  · rintro rfl
    exact ⟨_, hwithin, _, List.mem_singleton_self _, _, hown, by simp [Frame.findVariable]⟩

/-- A frame of its own for a function that is registered already. -/
private theorem Store.moves_withOwn {s : Store} {m : Frame} (hs : s.Sound L) (hm : s.frame? FrameId.module = some m)
    (hmodule : s.Shows FrameId.module [functions]) (hdeclares : s.Declares L header.binding) :
    s.Moves L s.frames.size [] (s.withOwn m header) ∧ ∃ scope, (s.withOwn m header).Shows s.frames.size scope := by
  have hmoves : s.Moves L s.frames.size [] (s.addFrame (FrameId.module :: m.outer)) := .addFrame hs hm
  have hown :
      (s.addFrame (FrameId.module :: m.outer)).frame? s.frames.size = some { outer := FrameId.module :: m.outer } := by
    rw [Store.frame?_addFrame, if_pos rfl]
  have hyields : (declare s.frames.size header.binding).Yields (s.addFrame (FrameId.module :: m.outer)) ()
      (s.withOwn m header) := run_declare hown
  have hdeclare : Action.Moves L s.frames.size [] [header.binding.bare] _ (declare s.frames.size header.binding) _ _ :=
    moves_declare hmoves.sound (Store.frame_lt_size hown) (hmoves.toGrowsTo.declares hdeclares)
  obtain ⟨hmoves', hadds, -⟩ := Ends.yielded hdeclare hyields
  exact ⟨hmoves.trans hmoves', _,
    (hmodule.nest hm).declare hmoves.sound.frames hmoves'.toGrowsTo hmoves'.leaves hadds⟩

/-- A nested function is entered in a frame of its own. -/
private theorem enterNested_inv {s s' : Store} (hg : ∀ s₁, (registerFunction fr header).Yields s () s₁ → s.GrowsTo s₁)
    (hmodule : s.Within FrameId.module []) (h : (enterNested fr header).Yields s own s') :
    ∃ (s₁ : Store) (m : Frame), s₁.frame? FrameId.module = some m ∧ s₁.Within FrameId.module [] ∧ own = s₁.frames.size ∧
      s' = s₁.withOwn m header := by
  obtain ⟨_, s₁, hregister, -⟩ := yields_bind.mp (show (registerFunction fr header >>= _).Yields s own s' from h)
  have hwithin := hmodule.grow (hg s₁ hregister)
  obtain ⟨m, hm, -⟩ := hwithin
  have hrun : (Except.ok own, s') = (Except.ok s₁.frames.size, s₁.withOwn m header) :=
    (show (enterNested fr header).run.run s = _ from h).symm.trans (run_enterNested hregister hm)
  cases hrun
  exact ⟨s₁, m, hm, hmodule.grow (hg s₁ hregister), rfl, rfl⟩

private theorem refused_enterNested {s s' : Store} (hexported : header.exported = false)
    (h : (enterNested fr header).run.run s = (.error (.refused d), s')) :
    d = ⟨header.span, .duplicateDeclaration header.name⟩ := by
  unfold enterNested at h
  rcases ended_bind h with h | ⟨_, s₁, -, h⟩
  · unfold registerFunction at h
    rcases ended_bind h with h | ⟨_, _, hget, h⟩
    · cases h
    obtain ⟨rfl, rfl⟩ := yields_get.mp hget
    split at h
    · cases h
    rcases ended_bind h with h | ⟨_, _, -, h⟩
    · exact refused_declare h
    rcases ended_bind h with h | ⟨_, _, -, h⟩
    · cases h
    · rw [hexported] at h
      cases h
  rcases ended_bind h with h | ⟨_, _, -, h⟩
  · exact absurd h nest_not_refused
  rcases ended_bind h with h | ⟨_, _, -, h⟩
  · exact refused_declare h
  · cases h

private theorem retries_function {c : Context} {info : Info}
    (ih : ∀ v', Visit.Step ⟨c, fr, .expr (.function info header body), st⟩ v' → v'.Retries L functions) :
    Visit.Retries L functions ⟨c, fr, .expr (.function info header body), st⟩ := by
  refine retries_expr fun d e' st' fr₂ σ b hrun hf hstop hv hw hg => ?_
  have hopen : st.stop = none := hv.opened
  obtain ⟨uses, scope, hs⟩ := hv.sound
  cases hf with
  | @function span _ _ hexported hparams hbody =>
  rw [Check.expr, run_open hopen rfl] at hrun
  obtain ⟨o, st₁, hnested, hrun⟩ := run_bind_inv hrun
  cases o with
  | none =>
    cases hrun
    -- a name that is taken is reported once, and here it was the first time
    have honce : d ≠ ⟨header.span, .duplicateDeclaration header.name⟩ :=
      hv.once _ (Expr.self_mem_nodes _) header.binding (by simp [Expr.declared])
    exact absurd (refused_enterNested hexported (attempt_refused hopen hnested hstop)) honce
  | some own =>
    obtain ⟨⟨i, header', body'⟩, _, hfunction, hreturn⟩ := run_bind_inv hrun
    cases hreturn
    obtain ⟨hprepared, hshows, hlisted, hregistered⟩ := hs.ready.nested hexported hnested
    have hbinding : header'.binding = header.binding := functionWith_binding rfl hfunction
    have hspan : header'.span = header.span := congrArg Variable.span hbinding
    have hnew : st.store.function header.span = {} := hs.ready.unseen header (List.mem_cons_self)
    obtain ⟨s₁, m, hm, hwithin, rfl, hstore₁⟩ := enterNested_inv (fun s₁ h => (Ends.yielded
      (moves_register hs.ready.sound.store hs.ready.frame hexported hlisted hnew) h).1.toGrowsTo)
      (hs.ready.module.within_module hs.ready.sound.store.frames) (attempt_gives hnested).yields
    obtain ⟨hinner, hsees⟩ := Store.inner_withOwn hm hwithin
    rw [← hstore₁] at hinner hsees
    have he : st₁.Enters L functions s₁.frames.size header body :=
      ⟨attempt_alive hnested, hprepared, ⟨_, hshows⟩, hlisted,
      hregistered, hparams, hbody, hinner.mono fun _ => .inr⟩
    have hmodule₂ := hw.module.within_module hw.sound.store.frames
    obtain ⟨m₂, hm₂, -⟩ := hw.module
    have hdeclares₂ : σ.store.Declares L header'.binding := by
      rw [hbinding]
      exact ((he.grows hfunction).trans hg).declares
        ⟨(Listing.lists_cons.mp hlisted).1, (Listing.lists_cons.mp hlisted).2, hregistered⟩
    obtain ⟨hmoves₂, hshows₂⟩ := Store.moves_withOwn hw.sound.store hm₂ hw.module hdeclares₂
    obtain ⟨hinner₂, hsees₂⟩ := Store.inner_withOwn hm₂ hmodule₂
    have hnested₂ : (attempt (enterNested fr₂ header')).run σ =
        (some σ.store.frames.size, { σ with store := σ.store.withOwn m₂ header' }) := by
      rw [run_attempt hw.opened, run_enterNested (run_registerFunction hdeclares₂.2.2) hm₂]
    have hreenters : CheckState.Reenters L functions s₁.frames.size σ.store.frames.size st₁ st'
        { σ with store := σ.store.withOwn m₂ header' } := {
      opened := hw.opened
      sound := ⟨hmoves₂.sound, hmoves₂.toExtends.idle hw.sound.idle, hw.sound.faultless⟩
      grows := hg.trans hmoves₂.toGrowsTo
      module := hw.module.before hw.sound.store.frames hmoves₂.leaves hw.sound.store.frames.module_lt
      shows := hshows₂
      inner := hinner₂.mono fun _ _ => trivial
      sees := fun name hname => (hsees name).mpr (((hsees₂ name).mp hname).trans (congrArg Variable.name hbinding)) }
    obtain ⟨hstop₂, hmoves'⟩ := functionWith_again rfl he hreenters (fun n hn => hv.once n (List.mem_cons_of_mem _ hn))
      (fun v hbegins => ih v (.nested hopen rfl hnested hbegins)) hfunction hstop
    have huntyped : i.type = none := by rw [functionWith_untyped rfl hfunction hstop]
    obtain ⟨hends, hstore⟩ := contains_nested hw.opened huntyped hnested₂ _ hstop₂
    refine ⟨hends, (?_ : σ.store.Moves L fr₂ [] _)⟩
    rw [show Visit.after _ = ((Check.expr c fr₂ (.function i header' body')).run σ).2 from rfl, hstore]
    exact (hmoves₂.trans hmoves').before le_rfl

/-! ### All parts of a tree -/

/-- A second visit to what a refused visit has left is refused for the same reason. -/
theorem Visit.retries (v : Visit) : v.Retries L functions := by
  -- by the size of the part: the visits that a visit leads to are to smaller parts
  induction hn : v.part.size using Nat.strong_induction_on generalizing v with
  | _ n ih =>
    subst hn
    replace ih : ∀ v', v.Step v' → v'.Retries L functions := fun v' hstep => ih _ hstep.smaller v' rfl
    obtain ⟨c, fr, part, st⟩ := v
    cases part with
    | option e => exact retries_option ih
    | exprs es => exact retries_exprs ih
    | fields owner declared seen inits => exact retries_fields ih
    | block b => exact retries_block ih
    | expr e =>
      cases e with
      | integer info n =>
        refine retries_constant (i := info.fold TypeId.i32 (.i32 n)) (m := fun i => .integer i n)
          fun hopen huntyped => ?_
        rw [Check.expr, run_open hopen (by exact skip_untyped huntyped)]
        rfl
      | float info x =>
        refine retries_constant (i := info.fold TypeId.f64 (.f64 x)) (m := fun i => .float i x) fun hopen huntyped => ?_
        rw [Check.expr, run_open hopen (by exact skip_untyped huntyped)]
        rfl
      | boolean info b =>
        refine retries_constant (i := info.fold TypeId.bool (.bool b)) (m := fun i => .boolean i b)
          fun hopen huntyped => ?_
        rw [Check.expr, run_open hopen (by exact skip_untyped huntyped)]
        rfl
      | identifier info name binding => exact retries_identifier
      | member info base name span index => exact retries_member ih
      | call info callee args => exact retries_call ih
      | builtinCall info name args => exact retries_builtinCall ih
      | unary info op operand => exact retries_unary ih
      | binary info op lhs rhs => exact retries_binary ih
      | assignment info target source => exact retries_assignment ih
      | structLiteral info name inits => exact retries_structLiteral ih
      | letBinding info binding declared init => exact retries_letBinding ih
      | block b => exact retries_blockExpr ih
      | ifElse info cond thenBlock other => exact retries_ifElse ih
      | whileLoop info cond body => exact retries_whileLoop ih
      | endlessLoop info body => exact retries_endlessLoop ih
      | leaveLoop info => exact retries_leaveLoop
      | nextRound info => exact retries_nextRound
      | leaveFunction info result => exact retries_leaveFunction ih
      | function info header body => exact retries_function ih

end

end RainCheck
