import RainCheck.Proofs.Revisiting

/-!
# Walks through trees that carry annotations: expressions

One lemma for each kind of expression, and an induction over trees that puts them together: whatever a walk finds on a
tree that stands upright, it leaves such a tree, and the parts it has passed have types.
-/

namespace RainCheck.Check

open RainCheck.Action CheckState
open RainCheck.Expr (AllUpright nodes nodesAll nodesBlock nodesFields nodesOption)

variable {β : Type} {L : Listing} {c : Context} {fr : FrameId} {st : CheckState}

/-! ### Nodes -/

/-- A rule says something about a node without a type, or the walk has ended and the node is as it was. -/
private theorem steps_conclude {info : Info} {rule : Action Info} (hs : st.Steady L)
    (huntyped : info.type = none) (hvalue : info.value = none)
    (h : st.stop = none → rule.Keeps L st.store (fun i s => ∃ t, i.Proper s t) L.Allows) :
    Steps L st (conclude info rule) fun i st' => i.Upright st'.store ∧ (st'.stop = none → i.type.isSome = true) := by
  unfold conclude
  refine steps_attempt (R := fun i s => ∃ t, i.Typed s t) hs (fun hopen => ?_) ?_ ?_
  · have hrule : rule.Keeps L st.store (fun i s => ∃ t, i.Proper s t ∧ True) L.Allows :=
      (h hopen).mono (fun _ _ _ _ ⟨t, ht⟩ => ⟨t, ht, trivial⟩) fun _ h => h
    exact (hrule.settled.mono (fun _ _ _ _ ⟨t, ht, _⟩ => ⟨t, ht⟩) fun _ h => h).steps hs.store
  · rintro i st' hs' hsteps halive ⟨t, ht⟩
    refine steps_pure hs' ⟨⟨fun u hu => ?_, fun hnone => ?_⟩, fun _ => ?_⟩
    · obtain rfl : t = u := Option.some.inj (ht.type.symm.trans hu)
      exact ht
    · cases hnone.symm.trans ht.type
    · simp [ht.type]
  · refine fun st' hs' hsteps hended => steps_pure hs' ⟨⟨fun u hu => ?_, fun _ => hvalue⟩, fun halive => ?_⟩
    · cases huntyped.symm.trans hu
    · exact absurd halive hended

/-- What is known without a rule is said about the node, unless the walk has ended before. -/
private theorem steps_conclude_return {info i : Info} {t : TypeId} (hs : st.Steady L) (hopen : st.stop = none)
    (hi : i.Proper st.store t) :
    Steps L st (conclude info (return i)) fun i st' => st'.stop = none ∧ i.Typed st'.store t := by
  obtain ⟨j, st', hrun⟩ : ∃ j st', (conclude info (return i)).run st = (j, st') := ⟨_, _, rfl⟩
  have hrule : (return i : Action Info).Keeps L st.store (fun i s => ∃ u, i.Proper s u ∧ u = t) L.Allows :=
    keeps_pure hs.store.sound ⟨t, hi, rfl⟩
  have hsteps : Steps L st (conclude info (return i)) fun i st' => st'.stop = none → i.Typed st'.store t := by
    unfold conclude
    refine steps_attempt (R := fun i s => i.Typed s t) hs (fun _ => ?_) ?_ ?_
    · exact (hrule.settled.mono (fun _ _ _ _ ⟨u, hu, heq⟩ => heq ▸ hu) fun _ h => h).steps hs.store
    · exact fun i st' hs' _ _ ht => steps_pure hs' fun _ => ht
    · exact fun st' hs' _ hended => steps_pure hs' fun halive => absurd halive hended
  obtain ⟨hs', hsteps', htyped⟩ := (steps_iff hrun).mp hsteps
  refine (steps_iff hrun).mpr ⟨hs', hsteps', ?_⟩
  cases hstop : st'.stop with
  | none => exact ⟨rfl, htyped hstop⟩
  | some why =>
    cases why with
    | fault g => exact absurd hstop (hs'.faultless g)
    | refused d => exact absurd hstop (conclude_return hopen hrun)

/-- What is made of a node whose parts are upright and of what its rule says about it, as an expression. -/
private theorem steps_made {info : Info} {rule : Action Info} {make : Info → β} (view : β → Expr)
    {ns : List Expr} (hs : st.Steady L) (huntyped : info.type = none) (hvalue : info.value = none)
    (hnodes : ∀ i, (view (make i)).nodes = view (make i) :: ns) (hinfo : ∀ i, (view (make i)).info = i)
    (hshaped : ∀ i s, (view (make i)).Shaped L s) (hns : AllUpright L st.store ns)
    (h : st.stop = none → rule.Keeps L st.store (fun i s => ∃ t, i.Proper s t) L.Allows) :
    Steps L st (do return make (← conclude info rule)) fun x st' => st'.Bears L (view x).nodes [view x] := by
  refine (steps_conclude hs huntyped hvalue h).bind fun i st' hs' hsteps ⟨hi, htyped⟩ => steps_pure hs' ?_
  refine ⟨?_, fun halive => ?_⟩
  · rw [hnodes, Expr.allUpright_cons]
    exact ⟨⟨(hinfo i).symm ▸ hi, hshaped i _⟩, hns.grow hsteps.store.toGrowsTo⟩
  · simpa [hinfo] using htyped halive

/-- A node whose parts are upright gets what its rule says. -/
private theorem steps_node {info : Info} {rule : Action Info} {make : Info → Expr} {ns : List Expr}
    (hs : st.Steady L) (huntyped : info.type = none) (hvalue : info.value = none)
    (hnodes : ∀ i, (make i).nodes = make i :: ns) (hinfo : ∀ i, (make i).info = i)
    (hshaped : ∀ i s, (make i).Shaped L s) (hns : AllUpright L st.store ns)
    (h : st.stop = none → rule.Keeps L st.store (fun i s => ∃ t, i.Proper s t) L.Allows) :
    Steps L st (do return make (← conclude info rule)) fun e st' => st'.Bears L e.nodes [e] :=
  steps_made id hs huntyped hvalue hnodes hinfo hshaped hns h

/-- A node whose parts are upright gets what is known about it without a rule. -/
private theorem steps_found {info i : Info} {t : TypeId} {make : Info → Expr} {ns : List Expr} (hs : st.Steady L)
    (hopen : st.stop = none) (hi : i.Proper st.store t) (hnodes : ∀ i, (make i).nodes = make i :: ns)
    (hinfo : ∀ i, (make i).info = i) (hshaped : ∀ i : Info, i.type = some t → (make i).Shaped L st.store)
    (hns : AllUpright L st.store ns) :
    Steps L st (do return make (← conclude info (return i))) fun e st' => st'.Bears L e.nodes [e] := by
  refine (steps_conclude_return hs hopen hi).bind fun i st' hs' hsteps ⟨_, hi⟩ => steps_pure hs' ⟨?_, fun _ => ?_⟩
  · have hg := hsteps.store.toGrowsTo
    rw [hnodes, Expr.allUpright_cons]
    refine ⟨⟨(hinfo i).symm ▸ ⟨fun u hu => ?_, fun hnone => ?_⟩, (hshaped i hi.type).grow hg⟩, hns.grow hg⟩
    · obtain rfl := Option.some.inj (hi.type.symm.trans hu)
      exact hi
    · cases hnone.symm.trans hi.type
  · simp [hinfo, hi.type]

private theorem steps_constant {info : Info} {v : Value} {make : Info → Expr} (hs : st.Steady L)
    (huntyped : info.type = none)
    (hvalue : info.value = none) (hnodes : ∀ i, (make i).nodes = [make i]) (hinfo : ∀ i, (make i).info = i)
    (hshaped : ∀ i s, (make i).Shaped L s) :
    Steps L st (do return make (← conclude info (return info.fold v.type v))) fun e st' => st'.Bears L e.nodes [e] := by
  obtain ⟨name, he⟩ := hs.store.sound.types.value v
  refine steps_node hs huntyped hvalue hnodes hinfo hshaped Expr.allUpright_nil
    fun _ => keeps_pure hs.store.sound ⟨v.type, .fold (Store.settled_of_entry he rfl)⟩

private theorem steps_demand {a : Action Unit} {R : Store → Prop} (hs : st.Steady L)
    (h : st.stop = none → a.Steps L st.store fun _ s => R s) :
    Steps L st (demand a) fun _ st' => st'.stop = none → R st'.store := by
  unfold demand
  refine steps_attempt (R := fun _ s => R s) hs h ?_ ?_
  · exact fun _ st' hs' _ _ hR => steps_pure hs' fun _ => hR
  · exact fun st' hs' _ hended => steps_pure hs' fun halive => absurd halive hended

/-- A node that cannot be said anything about because the walk has ended. -/
private theorem steps_kept {e : Expr} (hs : st.Steady L) (hstanding : AllUpright L st.store e.nodes)
    (hended : st.stop ≠ none) :
    Steps L st (pure e) fun e st' => st'.Bears L e.nodes [e] :=
  steps_pure hs ⟨hstanding, fun halive => absurd halive hended⟩

/-! ### Functions -/

private theorem steps_bindParams {params : List Param} {types : List TypeId} (hs : st.Steady L) (hfr : 3 ≤ fr)
    (hlt : fr < st.store.frames.size) (hparams : ∀ p ∈ params, p.binding.kind = .argument)
    (htypes : ∀ t ∈ types, st.store.Settled t) (hlen : types.length = params.length) :
    Steps L st (bindParams fr params types) fun ps _ =>
      (∀ p ∈ ps, p.binding.kind = .argument) ∧ ps.map (·.declared) = params.map (·.declared) := by
  induction params generalizing types st with
  | nil =>
    obtain rfl := List.length_eq_zero_iff.mp hlen
    exact steps_pure hs ⟨by simp, rfl⟩
  | cons p params ih =>
    match types with
    | [] => cases hlen
    | t :: types =>
      obtain ⟨hp, hparams'⟩ := List.forall_mem_cons.mp hparams
      obtain ⟨ht, htypes⟩ := List.forall_mem_cons.mp htypes
      rw [bindParams]
      refine steps_unless hs rfl (fun _ => ⟨hparams, rfl⟩) fun _ _ => ?_
      have hdeclares : st.store.Declares L { p.binding with type := .borrowed t } := by
        simp only [Store.Declares, hp]
        exact ⟨t, rfl, ht⟩
      have hdeclare := fun _ : st.stop = none => Action.steps_declare hs.store hfr hlt hdeclares
      refine (steps_demand (R := fun _ => True) hs hdeclare).bind fun _ st₁ hs₁ hsteps₁ _ => ?_
      have hg := hsteps₁.store.toGrowsTo
      refine (ih hs₁ (hg.frame_lt hlt) hparams' (fun u hu => hg.settled (htypes u hu)) (by simpa using hlen)).bind ?_
      rintro rest st₂ hs₂ - ⟨hrest, hdeclared⟩
      exact steps_pure hs₂ ⟨List.forall_mem_cons.mpr ⟨hp, hrest⟩, by simp [hdeclared]⟩

/-- A registered function is checked with what was found out about it before, which is not taken back. -/
theorem steps_functionWith {options : Options} {info : Info} {header : Header} {body : Block Expr}
    {walk : Context → FrameId → Check (Block Expr)} (hL : ∀ span, L.isOtherName span) (hs : st.Steady L)
    (hfr : fr < st.store.frames.size) (hregistered : (st.store.function header.span).variableType.isSome = true)
    (hf : FunctionDecl.Upright L st.store ⟨info, header, body⟩)
    (hwalk : ∀ c fr st, st.Standby L c fr → AllUpright L st.store (nodesBlock body) →
      Steps L st (walk c fr) fun b st' => st'.Bears L (Expr.block b).nodes [.block b]) :
    Steps L st (functionWith options fr info header body walk) fun r st' =>
      FunctionDecl.Upright L st'.store ⟨r.1, r.2.1, r.2.2⟩ ∧ r.2.1 = { header with params := r.2.1.params } ∧
        (st'.stop = none → r.1.type.isSome = true) := by
  unfold functionWith
  split
  · exact steps_pure hs ⟨hf, rfl, fun _ => ‹_›⟩
  have huntyped : info.type = none := by simpa using ‹¬info.type.isSome = true›
  have hvalue : info.value = none := hf.info.value huntyped
  refine steps_attempt hs (fun _ => Action.steps_enterFunction hL hs.store hfr hf.header hregistered) ?_ ?_
  · rintro ⟨sig, params, returns, inner⟩ st₁ hs₁ hsteps₁ _ ⟨hinner, hlt, hsig, hlen⟩
    dsimp only at hinner hlt hsig hlen ⊢
    obtain ⟨hparams, -, hreturns⟩ := hs₁.store.sound.types.functionTypes sig params returns hsig
    refine (steps_bindParams hs₁ hinner hlt hf.header.params (fun t ht => (hparams t ht).2) hlen).bind ?_
    rintro ps st₂ hs₂ hsteps₂ ⟨hps, hdeclared⟩
    refine (steps_same hs₂ rfl rfl).bind fun _ st₃ hs₃ hsteps₃ _ => ?_
    refine (steps_same hs₃ rfl rfl).bind fun _ st₄ hs₄ hsteps₄ _ => ?_
    have hsteps : st₁.StepsTo st₄ := (hsteps₂.trans hsteps₃).trans hsteps₄
    have hg := hsteps.store.toGrowsTo
    have hready : st₄.Standby L ⟨options, some returns⟩ inner :=
      ⟨hs₄, hinner, hg.frame_lt hlt, by rintro _ ⟨⟩; exact hg.settled hreturns⟩
    refine (hwalk _ _ st₄ hready (hf.body.grow (hsteps₁.trans hsteps).store.toGrowsTo)).bind ?_
    intro body' st₅ hs₅ hsteps₅ hbody
    refine (steps_same hs₅ rfl rfl).bind fun _ st₆ hs₆ hsteps₆ _ => ?_
    have hbody₆ := hbody.next hsteps₆
    have hg₆ := ((hsteps.trans hsteps₅).trans hsteps₆).store.toGrowsTo
    refine (steps_conclude hs₆ huntyped hvalue fun halive => ?_).bind ?_
    · obtain ⟨t, ht⟩ := hbody₆.info halive
      refine (keeps_expectBlock hs₆.store.sound ht (hg₆.settled hreturns).1).bind fun _ s hs hlearns _ => ?_
      have hsettled := Store.settled_of_entry (hlearns.toGrowsTo.same (hg₆.same hsig rfl) rfl) rfl
      exact keeps_pure hs ⟨sig, .resolve hvalue hsettled⟩
    · rintro i st₇ hs₇ hsteps₇ ⟨hi, htyped⟩
      exact steps_pure hs₇
        ⟨⟨hi, hf.header.withParams hps hdeclared, hbody₆.block.grow hsteps₇.store.toGrowsTo⟩, rfl, htyped⟩
  · exact fun st₁ hs₁ hsteps₁ hended => steps_pure hs₁
      ⟨⟨⟨fun t ht => (hf.info.typed t ht).grow hsteps₁.store.toGrowsTo, hf.info.value⟩, hf.header,
        hf.body.grow hsteps₁.store.toGrowsTo⟩, rfl, fun halive => absurd halive hended⟩

/-! ### Expressions -/

/-- A field that is checked has a value that stands where its type is expected. -/
private theorem steps_expectExpr {e : Expr} {t : TypeId} (hs : st.Steady L) (he : st.Bears L e.nodes [e])
    (ht : st.stop = none → st.store.Known t) : Steps L st (demand (expectExpr e t)) fun _ _ => True := by
  refine (steps_demand (R := fun _ => True) hs fun halive => ?_).mono fun _ _ _ => trivial
  obtain ⟨u, hu⟩ := he.info halive
  exact ((keeps_expectExpr hs.store.sound hu (ht halive)).steps hs.store).mono fun _ _ _ => trivial

/-- A walk through the expression, where it is upright, leaves an upright expression. -/
def StepsExpr (L : Listing) (e : Expr) : Prop :=
  ∀ {c : Context} {fr : FrameId} {st : CheckState}, st.Standby L c fr → AllUpright L st.store e.nodes →
    Steps L st (Check.expr c fr e) fun e' st' => st'.Bears L e'.nodes [e']

def StepsOption (L : Listing) (e : Option Expr) : Prop :=
  ∀ {c : Context} {fr : FrameId} {st : CheckState}, st.Standby L c fr → AllUpright L st.store (nodesOption e) →
    Steps L st (Check.option c fr e) fun e' st' => st'.Bears L (nodesOption e') e'.toList

def StepsExprs (L : Listing) (es : List Expr) : Prop :=
  ∀ {c : Context} {fr : FrameId} {st : CheckState}, st.Standby L c fr → AllUpright L st.store (nodesAll es) →
    Steps L st (Check.exprs c fr es) fun es' st' => st'.Bears L (nodesAll es') es'

def StepsBlock (L : Listing) (b : Block Expr) : Prop :=
  ∀ {c : Context} {fr : FrameId} {st : CheckState}, st.Standby L c fr → AllUpright L st.store (nodesBlock b) →
    Steps L st (Check.block c fr b) fun b' st' => st'.Bears L (Expr.block b').nodes [.block b']

/-- The fields of a literal are walked through whatever fields of known types the struct has. -/
def StepsFields (L : Listing) (inits : List (FieldInit Expr)) : Prop :=
  ∀ {c : Context} {fr : FrameId} {st : CheckState}, st.Standby L c fr → AllUpright L st.store (nodesFields inits) →
    ∀ (owner : String) (declared : List (String × TypeId)) (seen : List String),
      (∀ d ∈ declared, st.store.Known d.2) →
        Steps L st (Check.fields c fr owner declared seen inits) fun inits' st' => st'.Bears L (nodesFields inits') []

/-- A node that has a type is left as it is, and so is any other when the walk has ended before. -/
private theorem steps_untyped {e : Expr} {walk : Check Expr} (hs : st.Steady L) (he : AllUpright L st.store e.nodes)
    (h : e.info.type = none → e.info.value = none → Steps L st walk fun e' st' => st'.Bears L e'.nodes [e']) :
    Steps L st (do if (← stopped) || e.info.type.isSome then return e else walk)
      fun e' st' => st'.Bears L e'.nodes [e'] := by
  refine steps_unless hs rfl (fun hskip => ⟨he, fun halive => ?_⟩) fun _ hfalse => ?_
  · simpa [halive] using hskip
  · have huntyped : e.info.type = none := by simpa using hfalse
    exact h huntyped ((he e e.self_mem_nodes).info.value huntyped)

private theorem steps_identifier {info : Info} {name : String} {binding : Option Variable} :
    StepsExpr L (.identifier info name binding) := by
  intro c fr st hr he
  have hs := hr.steady
  rw [Check.expr]
  refine steps_untyped hs he fun _ hvalue => ?_
  obtain ⟨r, hlookup, -⟩ := hs.store.sound.frames.lookup hr.lt name
  have hrule := fun _ : st.stop = none =>
    (keeps_identifier hs.store.sound hs.store.idle hr.lt hvalue hlookup).steps hs.store
  refine steps_attempt hs hrule ?_ ?_
  · rintro ⟨v, found⟩ st₁ hs₁ hsteps₁ halive ⟨-, t, ht, hproper⟩
    refine steps_found hs₁ halive hproper (fun _ => by rw [nodes]) (fun _ => rfl)
      (fun i hi u hu => ?_) Expr.allUpright_nil
    obtain rfl := Option.some.inj (hi.symm.trans hu)
    exact ⟨v, rfl, ht⟩
  · exact fun st₁ hs₁ hsteps₁ hended => steps_kept hs₁ (he.grow hsteps₁.store.toGrowsTo) hended

private theorem steps_member {info : Info} {base : Expr} {name : String} {nameSpan : Span} {index : Nat}
    (hbase : StepsExpr L base) : StepsExpr L (.member info base name nameSpan index) := by
  intro c fr st hr he
  have hself := he _ (Expr.self_mem_nodes _)
  rw [Check.expr]
  refine steps_untyped hr.steady he fun huntyped hvalue => ?_
  rw [nodes, Expr.allUpright_cons] at he
  refine (hbase hr he.2).bind fun base' st₁ hs₁ hsteps₁ hbase => ?_
  refine steps_attempt (R := fun p s => ∃ u t, base'.type? = some u ∧ s.HasField u p.1 t ∧ p.2.Proper s t) hs₁
    (fun halive => ?_) ?_ ?_
  · obtain ⟨u, hu⟩ := hbase.info halive
    refine ((keeps_member hs₁.store.sound hs₁.store.idle hvalue hu).steps hs₁.store).mono ?_
    rintro p s ⟨w, decl, fields, t, hload, hstruct, -, hfield, hproper⟩
    exact ⟨u, t, hu.type, ⟨w, decl, fields, name, hload, hstruct, hfield⟩, hproper⟩
  · rintro ⟨index, found⟩ st₂ hs₂ hsteps₂ halive ⟨u, t, hu, hfield, hproper⟩
    refine steps_found hs₂ halive hproper (fun _ => by rw [nodes]) (fun _ => rfl) (fun i hi v hv => ?_)
      (hbase.next hsteps₂).standing
    obtain rfl := Option.some.inj (hi.symm.trans hv)
    exact ⟨u, hu, hfield⟩
  · intro st₂ hs₂ hsteps₂ hended
    refine steps_kept hs₂ ?_ hended
    rw [nodes, Expr.allUpright_cons]
    refine ⟨⟨(hself.grow (hsteps₁.trans hsteps₂).store.toGrowsTo).info, fun t ht => ?_⟩, (hbase.next hsteps₂).standing⟩
    cases huntyped.symm.trans ht

private theorem steps_call {info : Info} {callee : Expr} {args : List Expr} (hcallee : StepsExpr L callee)
    (hargs : StepsExprs L args) : StepsExpr L (.call info callee args) := by
  intro c fr st hr he
  rw [Check.expr]
  refine steps_untyped hr.steady he fun huntyped hvalue => ?_
  rw [nodes, Expr.allUpright_cons, Expr.allUpright_append] at he
  refine (hcallee hr he.2.1).bind fun callee' st₁ hs₁ hsteps₁ hcallee => ?_
  refine (hargs (hr.next hs₁ hsteps₁) (he.2.2.grow hsteps₁.store.toGrowsTo)).bind fun args' st₂ hs₂ hsteps₂ hargs => ?_
  have hcallee₂ := hcallee.next hsteps₂
  refine steps_node hs₂ huntyped hvalue (fun _ => by rw [nodes]) (fun _ => rfl)
    (fun _ _ => trivial) (Expr.allUpright_append.mpr ⟨hcallee₂.standing, hargs.standing⟩) fun halive => ?_
  obtain ⟨t, ht⟩ := hcallee₂.info halive
  exact (keeps_call hs₂.store.sound hvalue ht (hargs.infos halive)).mono
    (fun _ _ _ _ ⟨_, returns, _, _, hi⟩ => ⟨returns, hi⟩) fun _ h => h

private theorem steps_builtinCall {info : Info} {name : String} {args : List Expr} (hL : ∀ span, L.isOtherName span)
    (hargs : StepsExprs L args) : StepsExpr L (.builtinCall info name args) := by
  intro c fr st hr he
  have hs := hr.steady
  rw [Check.expr]
  refine steps_untyped hs he fun huntyped hvalue => ?_
  have hrule : st.stop = none → Action.Steps L st.store (findBuiltin info name) _ := fun _ =>
    (keeps_findBuiltin hs.store.sound (hL info.span)).steps hs.store
  refine steps_attempt hs hrule ?_ ?_
  · intro b st₁ hs₁ hsteps₁ _ _
    rw [nodes, Expr.allUpright_cons] at he
    refine (hargs (hr.next hs₁ hsteps₁) (he.2.grow hsteps₁.store.toGrowsTo)).bind fun args' st₂ hs₂ hsteps₂ hargs => ?_
    refine steps_node hs₂ huntyped hvalue (fun _ => by rw [nodes]) (fun _ => rfl) (fun _ _ => trivial) hargs.standing
      fun halive => ?_
    exact (keeps_builtin hs₂.store.sound hvalue (hargs.infos halive)).mono
      (fun _ _ _ _ ⟨_, _, _, _, hi⟩ => ⟨_, hi⟩) fun _ h => h
  · exact fun st₁ hs₁ hsteps₁ hended => steps_kept hs₁ (he.grow hsteps₁.store.toGrowsTo) hended

private theorem steps_unary {info : Info} {op : UnaryOp} {operand : Expr} (hoperand : StepsExpr L operand) :
    StepsExpr L (.unary info op operand) := by
  intro c fr st hr he
  rw [Check.expr]
  refine steps_untyped hr.steady he fun huntyped hvalue => ?_
  rw [nodes, Expr.allUpright_cons] at he
  refine (hoperand hr he.2).bind fun operand' st₁ hs₁ hsteps₁ hoperand => ?_
  refine steps_node hs₁ huntyped hvalue (fun _ => by rw [nodes]) (fun _ => rfl) (fun _ _ => trivial) hoperand.standing
    fun halive => ?_
  obtain ⟨u, hu⟩ := hoperand.info halive
  cases op with
  | negate =>
    exact (keeps_negation hs₁.store.sound hvalue hu fun _ => .inr).mono (fun _ _ _ _ ⟨t, _, hi⟩ => ⟨t, hi⟩) fun _ h => h
  | invert =>
    exact (keeps_negation hs₁.store.sound hvalue hu fun _ => isLogical_scalar).mono (fun _ _ _ _ ⟨t, _, hi⟩ => ⟨t, hi⟩)
      fun _ h => h
  | address =>
    have hlocation := Expr.hasLocation_of_allUpright hoperand.standing (hoperand.typed halive operand' (by simp))
    exact (keeps_address hs₁.store.sound hvalue hlocation hu).mono (fun _ _ _ _ ⟨_, t, _, hi⟩ => ⟨t, hi⟩) fun _ h => h

private theorem steps_binary {info : Info} {op : BinaryOp} {lhs rhs : Expr} (hlhs : StepsExpr L lhs)
    (hrhs : StepsExpr L rhs) :
    StepsExpr L (.binary info op lhs rhs) := by
  intro c fr st hr he
  rw [Check.expr]
  refine steps_untyped hr.steady he fun huntyped hvalue => ?_
  rw [nodes, Expr.allUpright_cons, Expr.allUpright_append] at he
  refine (hlhs hr he.2.1).bind fun lhs' st₁ hs₁ hsteps₁ hlhs => ?_
  refine (hrhs (hr.next hs₁ hsteps₁) (he.2.2.grow hsteps₁.store.toGrowsTo)).bind fun rhs' st₂ hs₂ hsteps₂ hrhs => ?_
  have hlhs₂ := hlhs.next hsteps₂
  refine steps_node hs₂ huntyped hvalue (fun _ => by rw [nodes]) (fun _ => rfl) (fun _ _ => trivial)
    (Expr.allUpright_append.mpr ⟨hlhs₂.standing, hrhs.standing⟩) fun halive => ?_
  obtain ⟨u, hu⟩ := hlhs₂.info halive
  obtain ⟨v, hv⟩ := hrhs.info halive
  exact (keeps_binary hs₂.store.sound hvalue hu hv).mono (fun _ _ _ _ ⟨_, _, _, _, hi⟩ => ⟨_, hi⟩) fun _ h => h

private theorem steps_assignment {info : Info} {target source : Expr} (htarget : StepsExpr L target)
    (hsource : StepsExpr L source) : StepsExpr L (.assignment info target source) := by
  intro c fr st hr he
  rw [Check.expr]
  refine steps_untyped hr.steady he fun huntyped hvalue => ?_
  rw [nodes, Expr.allUpright_cons, Expr.allUpright_append] at he
  refine (htarget hr he.2.1).bind fun target' st₁ hs₁ hsteps₁ htarget => ?_
  refine (hsource (hr.next hs₁ hsteps₁) (he.2.2.grow hsteps₁.store.toGrowsTo)).bind
    fun source' st₂ hs₂ hsteps₂ hsource => ?_
  have htarget₂ := htarget.next hsteps₂
  refine steps_node hs₂ huntyped hvalue (fun _ => by rw [nodes]) (fun _ => rfl) (fun _ _ => trivial)
    (Expr.allUpright_append.mpr ⟨htarget₂.standing, hsource.standing⟩) fun halive => ?_
  obtain ⟨u, hu⟩ := htarget₂.info halive
  obtain ⟨v, hv⟩ := hsource.info halive
  have htyped := htarget₂.typed halive target' (by simp)
  exact (keeps_assignment hs₂.store.sound hvalue (Expr.place_of_allUpright htarget₂.standing htyped)
    (Expr.hasLocation_of_allUpright htarget₂.standing htyped) hu hv).mono (fun _ _ _ _ ⟨_, _, _, _, hi⟩ => ⟨_, hi⟩)
    fun _ h => h

private theorem steps_structLiteral {info : Info} {name : String} {inits : List (FieldInit Expr)}
    (hL : ∀ span, L.isOtherName span) (hinits : StepsFields L inits) :
    StepsExpr L (.structLiteral info name inits) := by
  intro c fr st hr he
  have hs := hr.steady
  rw [Check.expr]
  refine steps_untyped hs he fun huntyped hvalue => ?_
  have hrule : st.stop = none → Action.Steps L st.store (literalStruct fr info name) _ := fun _ =>
    (keeps_literalStruct hs.store.sound hs.store.idle hr.lt (hL info.span)).steps hs.store
  refine steps_attempt hs hrule ?_ ?_
  · rintro ⟨type, owner, declared⟩ st₁ hs₁ hsteps₁ - ⟨hsettled, decl, hdecl⟩
    dsimp only at hsettled hdecl ⊢
    rw [nodes, Expr.allUpright_cons] at he
    have hdeclared : ∀ d ∈ declared, st₁.store.Known d.2 := fun d hd =>
      ((hs₁.store.sound.types.resolved type decl declared hdecl).1 d hd).1
    refine (hinits (hr.next hs₁ hsteps₁) (he.2.grow hsteps₁.store.toGrowsTo) owner declared [] hdeclared).bind
      fun inits' st₂ hs₂ hsteps₂ hinits => ?_
    refine steps_node hs₂ huntyped hvalue (fun _ => by rw [nodes]) (fun _ => rfl) (fun _ _ => trivial) hinits.standing
      fun _ => ?_
    exact (keeps_literal hs₂.store.sound hvalue (hsteps₂.store.toGrowsTo.settled hsettled)).mono
      (fun _ _ _ _ ⟨_, hi⟩ => ⟨_, hi⟩) fun _ h => h
  · exact fun st₁ hs₁ hsteps₁ hended => steps_kept hs₁ (he.grow hsteps₁.store.toGrowsTo) hended

/-- A binding that is refused keeps its variable. -/
private theorem steps_kept_let {info : Info} {v : Variable} {declared : Option TypeExpr}
    {init : Expr} (hs : st.Steady L)
    (hended : st.stop ≠ none) (hinfo : info.Upright st.store) (hinit : AllUpright L st.store init.nodes)
    (hkind : v.kind = .bound) :
    Steps L st (pure (Expr.letBinding info (.owned v) declared init)) fun e st' => st'.Bears L e.nodes [e] := by
  refine steps_kept hs ?_ hended
  rw [nodes, Expr.allUpright_cons]
  exact ⟨⟨hinfo, fun _ => ⟨v, rfl, hkind⟩⟩, hinit⟩

private theorem steps_letBinding {info : Info} {binding : Holder Variable} {declared : Option TypeExpr} {init : Expr}
    (hL : ∀ span, L.isOtherName span) (hinit : StepsExpr L init) :
    StepsExpr L (.letBinding info binding declared init) := by
  intro c fr st hr he
  have hself := he _ (Expr.self_mem_nodes _)
  rw [Check.expr]
  refine steps_untyped hr.steady he fun huntyped hvalue => ?_
  rw [nodes, Expr.allUpright_cons] at he
  obtain ⟨v, rfl, hkind⟩ := hself.shaped huntyped
  have hinfo : ∀ {st' : CheckState}, st.StepsTo st' → info.Upright st'.store := fun hsteps =>
    (hself.grow hsteps.store.toGrowsTo).info
  refine (hinit hr he.2).bind fun init' st₁ hs₁ hsteps₁ hinit => ?_
  have hlt := hsteps₁.store.toGrowsTo.frame_lt hr.lt
  refine steps_attempt (R := fun w s => w.kind = .bound ∧ s.Declares L w) hs₁ (fun halive => ?_) ?_ ?_
  · obtain ⟨u, hu⟩ := hinit.info halive
    refine ((keeps_let hs₁.store.sound hs₁.store.idle hlt (TypeExpr.lists_option hL declared) hu).steps
      hs₁.store).mono ?_
    rintro _ s ⟨holder, t, rfl, ht, hsettled, -⟩
    refine ⟨hkind, ?_⟩
    simp only [Store.Declares, hkind]
    exact ⟨t, ht, hsettled⟩
  · rintro w st₂ hs₂ hsteps₂ - ⟨hw, hdeclares⟩
    have hsteps := hsteps₁.trans hsteps₂
    have hinit₂ := hinit.next hsteps₂
    have hdeclare : Action.Steps L st₂.store (do
        Action.declare fr w
        Action.lift (Holder.take (.owned w))) fun _ _ => True :=
      (steps_declare hs₂.store hr.inner (hsteps₂.store.toGrowsTo.frame_lt hlt) hdeclares).bind
        fun _ s hs _ _ => Action.steps_pure hs trivial
    refine steps_attempt hs₂ (fun _ => hdeclare) ?_ ?_
    · rintro ⟨w', -⟩ st₃ hs₃ hsteps₃ halive -
      have hvoid : st₃.store.Settled TypeId.void := hs₃.store.sound.settled rfl
      exact steps_found hs₃ halive (.resolve hvalue hvoid) (fun _ => by rw [nodes]) (fun _ => rfl)
        (fun i hi hnone => by cases hnone.symm.trans hi) (hinit₂.next hsteps₃).standing
    · exact fun st₃ hs₃ hsteps₃ hended =>
        steps_kept_let hs₃ hended (hinfo (hsteps.trans hsteps₃)) (hinit₂.next hsteps₃).standing hw
  · exact fun st₂ hs₂ hsteps₂ hended =>
      steps_kept_let hs₂ hended (hinfo (hsteps₁.trans hsteps₂)) (hinit.next hsteps₂).standing hkind

/-- A condition is checked, and has to be a truth value. -/
private theorem steps_condition {cond : Expr} {f : Expr → Check β} {Q : β → CheckState → Prop}
    (hcond : StepsExpr L cond)
    (hr : st.Standby L c fr) (he : AllUpright L st.store cond.nodes)
    (hf : ∀ cond' st', st'.Steady L → st.StepsTo st' → st'.Bears L cond'.nodes [cond'] → Steps L st' (f cond') Q) :
    Steps L st (Check.expr c fr cond >>= fun cond' => do demand (expectExpr cond' TypeId.bool); f cond') Q := by
  refine (hcond hr he).bind fun cond' st₁ hs₁ hsteps₁ hcond => ?_
  refine (steps_expectExpr hs₁ hcond fun _ => (hs₁.store.sound.settled rfl).1).bind fun _ st₂ hs₂ hsteps₂ _ => ?_
  exact hf cond' st₂ hs₂ (hsteps₁.trans hsteps₂) (hcond.next hsteps₂)

private theorem steps_ifElse {info : Info} {cond : Expr} {thenBlock : Block Expr} {other : Option Expr}
    (hcond : StepsExpr L cond) (hthen : StepsBlock L thenBlock) (hother : StepsOption L other) :
    StepsExpr L (.ifElse info cond thenBlock other) := by
  intro c fr st hr he
  rw [Check.expr]
  refine steps_untyped hr.steady he fun huntyped hvalue => ?_
  rw [nodes, Expr.allUpright_cons, Expr.allUpright_append, Expr.allUpright_append] at he
  refine steps_condition hcond hr he.2.1.1 fun cond' st₁ hs₁ hsteps₁ hcond => ?_
  refine (hthen (hr.next hs₁ hsteps₁) (he.2.1.2.grow hsteps₁.store.toGrowsTo)).bind
    fun then' st₂ hs₂ hsteps₂ hthen => ?_
  have hsteps := hsteps₁.trans hsteps₂
  refine (hother (hr.next hs₂ hsteps) (he.2.2.grow hsteps.store.toGrowsTo)).bind fun other' st₃ hs₃ hsteps₃ hother => ?_
  have hthen₃ := hthen.next hsteps₃
  refine steps_node hs₃ huntyped hvalue (fun _ => by rw [nodes]) (fun _ => rfl) (fun _ _ => trivial) ?_ fun halive => ?_
  · rw [Expr.allUpright_append, Expr.allUpright_append]
    exact ⟨⟨(hcond.next (hsteps₂.trans hsteps₃)).standing, hthen₃.block⟩, hother.standing⟩
  · obtain ⟨t, ht⟩ := hthen₃.info halive
    exact (keeps_if hs₃.store.sound hvalue ht (hother.option halive)).mono (fun _ _ _ _ ⟨_, _, _, _, hi⟩ => ⟨_, hi⟩)
      fun _ h => h

private theorem steps_whileLoop {info : Info} {cond : Expr} {body : Block Expr} (hcond : StepsExpr L cond)
    (hbody : StepsBlock L body) : StepsExpr L (.whileLoop info cond body) := by
  intro c fr st hr he
  rw [Check.expr]
  refine steps_untyped hr.steady he fun huntyped hvalue => ?_
  rw [nodes, Expr.allUpright_cons, Expr.allUpright_append] at he
  refine steps_condition hcond hr he.2.1 fun cond' st₁ hs₁ hsteps₁ hcond => ?_
  refine (steps_same hs₁ rfl rfl).bind fun _ st₂ hs₂ hsteps₂ _ => ?_
  have hsteps := hsteps₁.trans hsteps₂
  refine (hbody (hr.next hs₂ hsteps) (he.2.2.grow hsteps.store.toGrowsTo)).bind fun body' st₃ hs₃ hsteps₃ hbody => ?_
  refine (steps_same hs₃ rfl rfl).bind fun _ st₄ hs₄ hsteps₄ _ => ?_
  have hbody₄ := hbody.next hsteps₄
  have hcond₄ := hcond.next ((hsteps₂.trans hsteps₃).trans hsteps₄)
  refine steps_node hs₄ huntyped hvalue (fun _ => by rw [nodes]) (fun _ => rfl) (fun _ _ => trivial)
    (Expr.allUpright_append.mpr ⟨hcond₄.standing, hbody₄.block⟩) fun halive => ?_
  obtain ⟨u, hu⟩ := hbody₄.info halive
  exact (keeps_loop hs₄.store.sound hvalue hu (.inl rfl)).mono (fun _ _ _ _ ⟨t, hi, _⟩ => ⟨t, hi⟩) fun _ h => h

private theorem steps_endlessLoop {info : Info} {body : Block Expr} (hbody : StepsBlock L body) :
    StepsExpr L (.endlessLoop info body) := by
  intro c fr st hr he
  rw [Check.expr]
  refine steps_untyped hr.steady he fun huntyped hvalue => ?_
  rw [nodes, Expr.allUpright_cons] at he
  refine (steps_same hr.steady rfl rfl).bind fun _ st₁ hs₁ hsteps₁ _ => ?_
  refine (hbody (hr.next hs₁ hsteps₁) (he.2.grow hsteps₁.store.toGrowsTo)).bind fun body' st₂ hs₂ hsteps₂ hbody => ?_
  refine (steps_same hs₂ rfl rfl).bind fun left st₃ hs₃ hsteps₃ _ => ?_
  have hbody₃ := hbody.next hsteps₃
  refine steps_node hs₃ huntyped hvalue (fun _ => by rw [nodes]) (fun _ => rfl) (fun _ _ => trivial) hbody₃.block
    fun halive => ?_
  obtain ⟨u, hu⟩ := hbody₃.info halive
  have ht : (if left then TypeId.void else TypeId.never) = TypeId.void ∨
      (if left then TypeId.void else TypeId.never) = TypeId.never := by cases left <;> simp
  exact (keeps_loop hs₃.store.sound hvalue hu ht).mono (fun _ _ _ _ ⟨t, hi, _⟩ => ⟨t, hi⟩) fun _ h => h

private theorem steps_jump {e : Expr} {make : Info → Expr} {keyword : String} {note : Check Unit}
    (hexpr : ∀ {c fr}, Check.expr c fr e = jump make keyword note e.info) (hself : make e.info = e)
    (hnote : ∀ st : CheckState, (note.run st).2.store = st.store ∧ (note.run st).2.stop = st.stop)
    (hnodes : ∀ i, (make i).nodes = [make i]) (hinfo : ∀ i, (make i).info = i)
    (hshaped : ∀ i s, (make i).Shaped L s) : StepsExpr L e := by
  intro c fr st hr he
  rw [hexpr, jump, hself]
  refine steps_untyped hr.steady he fun huntyped hvalue => ?_
  refine (steps_same hr.steady rfl rfl).bind fun _ st₁ hs₁ _ _ => ?_
  refine (steps_same hs₁ (hnote st₁).1 (hnote st₁).2).bind fun _ st₂ hs₂ _ _ => ?_
  exact steps_node hs₂ huntyped hvalue hnodes hinfo hshaped Expr.allUpright_nil
    fun _ => (keeps_jump hs₂.store.sound hvalue).mono (fun _ _ _ _ hi => ⟨_, hi⟩) fun _ h => h

private theorem steps_leaveFunction {info : Info} {result : Option Expr} (hresult : StepsOption L result) :
    StepsExpr L (.leaveFunction info result) := by
  intro c fr st hr he
  rw [Check.expr]
  refine steps_untyped hr.steady he fun huntyped hvalue => ?_
  rw [nodes, Expr.allUpright_cons] at he
  -- what is returned is checked inside of functions only
  have hnode : ∀ {st₁ : CheckState} {result : Option Expr}, st₁.Steady L → st.StepsTo st₁ →
      AllUpright L st₁.store (nodesOption result) →
      (st₁.stop = none → c.returns.isSome = true → ∀ x ∈ result, ∃ t, x.info.Typed st₁.store t) →
      Steps L st₁ (do return .leaveFunction (← conclude info (returnRule info c.returns result)) result)
        fun e st' => st'.Bears L e.nodes [e] := by
    intro st₁ result hs₁ hsteps₁ hstanding hresult
    refine steps_node hs₁ huntyped hvalue (fun _ => by rw [nodes]) (fun _ => rfl) (fun _ _ => trivial) hstanding
      fun halive => ?_
    have hreturns := fun r hr' => (hsteps₁.store.toGrowsTo.settled (hr.returns r hr')).1
    exact (keeps_return hs₁.store.sound hvalue hreturns (hresult halive)).mono (fun _ _ _ _ ⟨_, _, _, _, hi⟩ => ⟨_, hi⟩)
      fun _ h => h
  dsimp only
  split
  · refine (hresult hr he.2).bind fun result' st₁ hs₁ hsteps₁ hresult => ?_
    exact hnode hs₁ hsteps₁ hresult.standing fun halive _ => hresult.option halive
  · rename_i hnone
    exact hnode hr.steady (.refl st) he.2 fun _ hsome => absurd hsome hnone

private theorem steps_function {info : Info} {header : Header} {body : Block Expr} (hL : ∀ span, L.isOtherName span)
    (hbody : StepsBlock L body) : StepsExpr L (.function info header body) := by
  intro c fr st hr he
  have hs := hr.steady
  have hself := he _ (Expr.self_mem_nodes _)
  rw [Check.expr]
  refine steps_untyped hs he fun _ _ => ?_
  obtain ⟨hexported, hheader⟩ := hself.shaped
  have hrule := fun _ : st.stop = none => steps_enterNested hL hs.store hr.inner hr.lt hexported hheader
  refine steps_attempt hs hrule ?_ ?_
  · rintro own st₁ hs₁ hsteps₁ - ⟨hown, hregistered⟩
    have hg := hsteps₁.store.toGrowsTo
    rw [nodes, Expr.allUpright_cons] at he
    have hf : FunctionDecl.Upright L st₁.store ⟨info, header, body⟩ := ⟨(hself.grow hg).info, hheader, he.2.grow hg⟩
    refine (steps_functionWith hL hs₁ hown hregistered hf fun _ _ _ hr hb => hbody hr hb).bind ?_
    rintro ⟨info', header', body'⟩ st₂ hs₂ - ⟨hf', hheader', htyped⟩
    dsimp only at hf' hheader' htyped ⊢
    refine steps_pure hs₂ ⟨?_, fun halive => by simpa [Expr.info] using htyped halive⟩
    rw [nodes, Expr.allUpright_cons]
    exact ⟨⟨hf'.info, by rw [hheader']; exact hexported, hf'.header⟩, hf'.body⟩
  · exact fun st₁ hs₁ hsteps₁ hended => steps_kept hs₁ (he.grow hsteps₁.store.toGrowsTo) hended

/-! ### Trees -/

mutual

/-- A walk through an upright tree leaves an upright tree. -/
private theorem steps_expr (hL : ∀ span, L.isOtherName span) (e : Expr) : StepsExpr L e := by
  cases e with
  | integer info n =>
    intro c fr st hr he
    rw [Check.expr]
    exact steps_untyped hr.steady he fun huntyped hvalue => steps_constant (v := .i32 n) hr.steady huntyped hvalue
      (fun _ => by rw [nodes]) (fun _ => rfl) fun _ _ => trivial
  | float info x =>
    intro c fr st hr he
    rw [Check.expr]
    exact steps_untyped hr.steady he fun huntyped hvalue => steps_constant (v := .f64 x) hr.steady huntyped hvalue
      (fun _ => by rw [nodes]) (fun _ => rfl) fun _ _ => trivial
  | boolean info b =>
    intro c fr st hr he
    rw [Check.expr]
    exact steps_untyped hr.steady he fun huntyped hvalue => steps_constant (v := .bool b) hr.steady huntyped hvalue
      (fun _ => by rw [nodes]) (fun _ => rfl) fun _ _ => trivial
  | identifier info name binding => exact steps_identifier
  | member info base name nameSpan index => exact steps_member (steps_expr hL base)
  | call info callee args => exact steps_call (steps_expr hL callee) (steps_exprs hL args)
  | builtinCall info name args => exact steps_builtinCall hL (steps_exprs hL args)
  | unary info op operand => exact steps_unary (steps_expr hL operand)
  | binary info op lhs rhs => exact steps_binary (steps_expr hL lhs) (steps_expr hL rhs)
  | assignment info target source => exact steps_assignment (steps_expr hL target) (steps_expr hL source)
  | structLiteral info name inits => exact steps_structLiteral hL (steps_fields hL inits)
  | letBinding info binding declared init => exact steps_letBinding hL (steps_expr hL init)
  | block b =>
    intro c fr st hr he
    rw [Check.expr]
    refine steps_untyped hr.steady he fun _ _ => ?_
    rw [nodes] at he
    exact (steps_block hL b hr he).bind fun b' st₁ hs₁ _ hb => steps_pure hs₁ hb
  | ifElse info cond thenBlock other =>
    exact steps_ifElse (steps_expr hL cond) (steps_block hL thenBlock) (steps_option hL other)
  | whileLoop info cond body => exact steps_whileLoop (steps_expr hL cond) (steps_block hL body)
  | endlessLoop info body => exact steps_endlessLoop (steps_block hL body)
  | leaveLoop info =>
    exact steps_jump expr_leaveLoop rfl (fun _ => ⟨rfl, rfl⟩) (by simp [nodes]) (fun _ => rfl) fun _ _ => trivial
  | nextRound info =>
    exact steps_jump expr_nextRound rfl (fun _ => ⟨rfl, rfl⟩) (by simp [nodes]) (fun _ => rfl) fun _ _ => trivial
  | leaveFunction info result => exact steps_leaveFunction (steps_option hL result)
  | function info header body => exact steps_function hL (steps_block hL body)

private theorem steps_option (hL : ∀ span, L.isOtherName span) (e : Option Expr) : StepsOption L e := by
  intro c fr st hr he
  match e with
  | none =>
    rw [Check.option]
    exact steps_pure hr.steady ⟨he, fun _ => by simp⟩
  | some e =>
    rw [Check.option]
    exact (steps_expr hL e hr he).bind fun e' st₁ hs₁ _ he' => steps_pure hs₁ he'

private theorem steps_exprs (hL : ∀ span, L.isOtherName span) (es : List Expr) : StepsExprs L es := by
  intro c fr st hr hes
  match es with
  | [] =>
    rw [Check.exprs]
    exact steps_pure hr.steady ⟨hes, fun _ => by simp⟩
  | e :: rest =>
    rw [nodesAll, Expr.allUpright_append] at hes
    rw [Check.exprs]
    refine (steps_expr hL e hr hes.1).bind fun e' st₁ hs₁ hsteps₁ he' => ?_
    refine (steps_exprs hL rest (hr.next hs₁ hsteps₁) (hes.2.grow hsteps₁.store.toGrowsTo)).bind
      fun rest' st₂ hs₂ hsteps₂ hrest => ?_
    have he₂ := he'.next hsteps₂
    refine steps_pure hs₂ ⟨?_, fun halive => ?_⟩
    · rw [nodesAll, Expr.allUpright_append]
      exact ⟨he₂.standing, hrest.standing⟩
    · exact List.forall_mem_cons.mpr ⟨he₂.typed halive e' (by simp), hrest.typed halive⟩

private theorem steps_fields (hL : ∀ span, L.isOtherName span) (inits : List (FieldInit Expr)) :
    StepsFields L inits := by
  intro c fr st hr hinits owner declared seen hdeclared
  match inits with
  | [] =>
    rw [Check.fields]
    exact steps_pure hr.steady ⟨hinits, fun _ => by simp⟩
  | ⟨name, span, value⟩ :: rest =>
    rw [nodesFields, Expr.allUpright_append] at hinits
    rw [Check.fields]
    have hs := hr.steady
    refine steps_attempt hs (fun _ => (keeps_field hs.store.sound).steps hs.store) ?_ ?_
    · rintro t st₁ hs₁ hsteps₁ - ⟨hmem, -⟩
      refine (steps_expr hL value (hr.next hs₁ hsteps₁) (hinits.1.grow hsteps₁.store.toGrowsTo)).bind
        fun value' st₂ hs₂ hsteps₂ hvalue => ?_
      have hknown := fun d hd => (hsteps₁.trans hsteps₂).store.toGrowsTo.known (hdeclared d hd)
      refine (steps_expectExpr hs₂ hvalue fun _ => hknown _ hmem).bind fun _ st₃ hs₃ hsteps₃ _ => ?_
      have hsteps := (hsteps₁.trans hsteps₂).trans hsteps₃
      refine (steps_fields hL rest (hr.next hs₃ hsteps) (hinits.2.grow hsteps.store.toGrowsTo) owner declared _
        fun d hd => hsteps.store.toGrowsTo.known (hdeclared d hd)).bind fun rest' st₄ hs₄ hsteps₄ hrest => ?_
      refine steps_pure hs₄ ⟨?_, fun _ => by simp⟩
      rw [nodesFields, Expr.allUpright_append]
      exact ⟨((hvalue.next hsteps₃).next hsteps₄).standing, hrest.standing⟩
    · refine fun st₁ hs₁ hsteps₁ hended => steps_pure hs₁ ⟨?_, fun _ => by simp⟩
      rw [nodesFields, Expr.allUpright_append]
      exact ⟨hinits.1.grow hsteps₁.store.toGrowsTo, hinits.2.grow hsteps₁.store.toGrowsTo⟩

theorem steps_block (hL : ∀ span, L.isOtherName span) (b : Block Expr) : StepsBlock L b := by
  intro c fr st hr hb
  match b with
  | ⟨info, entered, stmts, tail⟩ =>
    have hs := hr.steady
    have hself : (Expr.block ⟨info, entered, stmts, tail⟩).Upright L st.store := hb _ (by simp [nodesBlock])
    rw [Check.block]
    refine steps_unless hs rfl (fun h => ⟨by rwa [nodes], fun halive => ?_⟩) fun hopen hfalse => ?_
    · simpa [halive, Expr.info] using h
    have huntyped : info.type = none := by simpa using hfalse
    have hvalue : info.value = none := hself.info.value huntyped
    refine steps_attempt hs (fun _ => steps_nest hs.store hr.lt) ?_ ?_
    · rintro inner st₁ hs₁ hsteps₁ - ⟨hinner, hlt⟩
      have hr₁ : st₁.Standby L c inner := { hr.next hs₁ hsteps₁ with inner := hinner, lt := hlt }
      rw [nodesBlock, Expr.allUpright_cons, Expr.allUpright_append] at hb
      refine (steps_exprs hL stmts hr₁ (hb.2.1.grow hsteps₁.store.toGrowsTo)).bind
        fun stmts' st₂ hs₂ hsteps₂ hstmts => ?_
      refine (steps_option hL tail (hr₁.next hs₂ hsteps₂) (hb.2.2.grow (hsteps₁.trans hsteps₂).store.toGrowsTo)).bind
        fun tail' st₃ hs₃ hsteps₃ htail => ?_
      refine steps_made Expr.block hs₃ huntyped hvalue (fun _ => by rw [nodes, nodesBlock]) (fun _ => rfl)
        (fun _ _ => trivial) (Expr.allUpright_append.mpr ⟨(hstmts.next hsteps₃).standing, htail.standing⟩)
        fun halive => ?_
      exact (keeps_block hs₃.store.sound hvalue (htail.option halive)).mono (fun _ _ _ _ ⟨t, _, _, hi⟩ => ⟨t, hi⟩)
        fun _ h => h
    · refine fun st₁ hs₁ hsteps₁ hended => steps_pure hs₁ ⟨?_, fun halive => absurd halive hended⟩
      rw [nodes]
      exact hb.grow hsteps₁.store.toGrowsTo

end

end RainCheck.Check
