import RainCheck.Proofs.InStep

/-!
# Two walks in step

Two walks through trees that match do the same step by step (`Check.InStep`): they find out the same about both trees,
and end early for the same reason if they do.  This follows from what is known about rules, one form of expressions
after the other.
-/

namespace RainCheck

open RainCheck.Action

/-- Two states of walks, around the same loops. -/
structure CheckState.Matches (S : StoreRelation) (m : Matching) (st st' : CheckState) : Prop where
  store : S m st.store st'.store
  loops : st'.loops = st.loops
  stop : Option.Rel (Stop.Matches m) st.stop st'.stop

/-- The contexts of two function bodies. -/
structure Context.Matches (m : Matching) (c c' : Context) : Prop where
  options : c'.options = c.options
  returns : Option.Rel m.type c.returns c'.returns

private theorem Context.Matches.mono {m n : Matching} {c c' : Context} (h : c.Matches m c') (hle : m ≤ n) :
    c.Matches n c' :=
  ⟨h.options, h.returns.imp hle.type⟩

private theorem Context.Matches.within {m : Matching} {options : Options} {t t' : TypeId} (h : m.type t t') :
    Context.Matches m ⟨options, some t⟩ ⟨options, some t'⟩ := ⟨rfl, .some h⟩

namespace Check

variable {α β γ δ : Type}

/-- Two walks do the same to states that are alike, and have results such that `Q` holds. -/
def InStep (S : StoreRelation) (m : Matching) (Q : Matching → α → β → Prop) (a : Check α) (b : Check β) : Prop :=
  ∀ st st', st.Matches S m st' → ∃ n, m ≤ n ∧ (a.run st).2.Matches S n (b.run st').2 ∧ Q n (a.run st).1 (b.run st').1

variable {S : StoreRelation} {m : Matching} {P Q : Matching → α → β → Prop} {R : Matching → γ → δ → Prop}
  {a : Check α} {b : Check β} {f : α → Check γ} {g : β → Check δ}

private theorem inStep_pure {x : α} {y : β} (h : Q m x y) : InStep S m Q (pure x) (pure y) :=
  fun _ _ hst => ⟨m, le_refl m, hst, h⟩

private theorem InStep.bind (h : InStep S m Q a b) (hf : ∀ n x y, m ≤ n → Q n x y → InStep S n R (f x) (g y)) :
    InStep S m R (a >>= f) (b >>= g) := by
  intro st st' hst
  obtain ⟨n, hle, hst', hxy⟩ := h st st' hst
  obtain ⟨l, hle', hst', hrel⟩ := hf n _ _ hle hxy _ _ hst'
  exact ⟨l, le_trans hle hle', hst', hrel⟩

private theorem inStep_get {f : CheckState → Check γ} {g : CheckState → Check δ}
    (h : ∀ st st', st.Matches S m st' → InStep S m R (f st) (g st')) : InStep S m R (get >>= f) (get >>= g) :=
  fun st st' hst => h st st' hst st st' hst

/-- The loops around are changed alike. -/
private theorem inStep_loops (change : List Bool → List Bool) {f : PUnit → Check γ} {g : PUnit → Check δ}
    (h : InStep S m R (f ⟨⟩) (g ⟨⟩)) :
    InStep S m R ((modify fun st : CheckState => { st with loops := change st.loops }) >>= f)
      ((modify fun st : CheckState => { st with loops := change st.loops }) >>= g) :=
  fun _ _ hst => h _ _ { hst with loops := congrArg change hst.loops }

private theorem inStep_exitLoop {f : Bool → Check γ} {g : Bool → Check δ} (h : ∀ left, InStep S m R (f left) (g left)) :
    InStep S m R (exitLoop >>= f) (exitLoop >>= g) := by
  intro st st' hst
  have hrun : ∀ {ε : Type} (k : Bool → Check ε) (st : CheckState), ((exitLoop >>= k).run st) =
      (k (st.loops.head?.getD false)).run { st with loops := st.loops.drop 1 } := fun _ _ => rfl
  rw [hrun, hrun, hst.loops]
  exact h _ _ _ { hst with loops := rfl }

/-- A part that is left out if the walk has ended, or if it is known already. -/
private theorem inStep_open {x : α} {y : β} (skip : Bool → Bool) (hQ : Q m x y) (h : InStep S m Q a b) :
    InStep S m Q (do if skip (← stopped) then return x else a) (do if skip (← stopped) then return y else b) := by
  refine inStep_get fun st st' hst => ?_
  have hstop : st'.stop.isSome = st.stop.isSome := hst.stop.isSome
  change InStep S m Q (if skip st.stop.isSome then pure x else a) (if skip st'.stop.isSome then pure y else b)
  rw [hstop]
  split
  · exact inStep_pure hQ
  · exact h

/-- A part that is left alone if it has a type. -/
private theorem inStep_unknown {i i' : Info} {x : α} {y : β} (hi : i.Matches m i') (hQ : Q m x y)
    (h : InStep S m Q a b) :
    InStep S m Q (do if (← stopped) || i.type.isSome then return x else a)
      (do if (← stopped) || i'.type.isSome then return y else b) := by
  rw [hi.type.isSome]
  exact inStep_open (· || i.type.isSome) hQ h

/-- Acting on the stores in step; the results are there unless a walk has ended. -/
private theorem inStep_attempt {a : Action α} {b : Action β} (h : Action.InStep S m Q a b) :
    InStep S m (fun n => Option.Rel (Q n)) (attempt a) (attempt b) := by
  intro st st' hst
  obtain ⟨store, loops, stop⟩ := st
  obtain ⟨store', loops', stop'⟩ := st'
  obtain ⟨hstore, hloops, hstop⟩ := hst
  cases hstop with
  | some hwhy => exact ⟨m, le_refl m, ⟨hstore, hloops, .some hwhy⟩, .none⟩
  | none =>
    obtain ⟨n, hle, hstore, hrel⟩ := h _ _ hstore
    unfold attempt
    dsimp only [StateT.run] at hstore hrel ⊢
    generalize ExceptT.run a store = r at hstore hrel ⊢
    generalize ExceptT.run b store' = r' at hstore hrel ⊢
    obtain ⟨r, store⟩ := r
    obtain ⟨r', store'⟩ := r'
    cases hrel with
    | ok h => exact ⟨n, hle, ⟨hstore, hloops, .none⟩, .some h⟩
    | error h => exact ⟨n, hle, ⟨hstore, hloops, .some h⟩, .none⟩

private theorem inStep_demand {a b : Action Unit} (h : Action.InStep S m (fun _ _ _ => True) a b) :
    InStep S m (fun _ _ _ => True) (demand a) (demand b) :=
  (inStep_attempt h).bind fun _ _ _ _ _ => inStep_pure trivial

end Check

open Check

section

variable {S : StoreRelation} (sim : Simulation S) {m : Matching} {c c' : Context} {fr fr' : FrameId} {i i' : Info}

include sim

private theorem inStep_conclude {rule rule' : Action Info} (hi : i.Matches m i')
    (h : Action.InStep S m Info.Matches rule rule') :
    Check.InStep S m Info.Matches (conclude i rule) (conclude i' rule') := by
  refine (inStep_attempt (h.bind fun n j j' _ hj => inStep_settle sim hj)).bind fun n o o' hle ho => ?_
  exact Check.inStep_pure (ho.getD (hi.mono hle))

/-- What is known about a node is said by a rule about parts that match. -/
private theorem inStep_node {α β : Type} {Q : Matching → α → β → Prop} {rule rule' : Action Info} {make : Info → α}
    {make' : Info → β} (hi : i.Matches m i') (h : Action.InStep S m Info.Matches rule rule')
    (hmake : ∀ n j j', m ≤ n → j.Matches n j' → Q n (make j) (make' j')) :
    Check.InStep S m Q (do return make (← conclude i rule)) (do return make' (← conclude i' rule')) :=
  (inStep_conclude sim hi h).bind fun n j j' hle hj => Check.inStep_pure (hmake n j j' hle hj)

private theorem inStep_bindParams {ps ps' : List Param} {ts ts' : List TypeId} (hfr : m.frame fr fr')
    (hps : List.Forall₂ (Param.Matches m) ps ps') (hts : List.Forall₂ m.type ts ts') :
    Check.InStep S m (fun n => List.Forall₂ (Param.Matches n)) (bindParams fr ps ts) (bindParams fr' ps' ts') := by
  induction ps generalizing m ps' ts ts' with
  | nil =>
    cases hps
    unfold bindParams
    exact Check.inStep_pure .nil
  | cons p rest ih =>
    cases hps with
    | cons hp hrest =>
      cases hts with
      | nil =>
        refine (inStep_demand inStep_fail).bind fun n _ _ hle _ => Check.inStep_pure ?_
        exact .cons (hp.mono hle) (hrest.imp fun _ _ h => h.mono hle)
      | cons ht hts =>
        refine inStep_open id (.cons hp hrest) ?_
        have hbinding := hp.binding.withType (.borrowed ht)
        refine (inStep_demand (sim.declare hfr hbinding)).bind fun n _ _ hle _ => ?_
        refine (ih (hle.frame _ _ hfr) (hrest.imp fun _ _ h => h.mono hle) (hts.imp hle.type)).bind
          fun l rest rest' hle' hrest => ?_
        have hle := le_trans hle hle'
        exact Check.inStep_pure (.cons ⟨hbinding.mono hle, hle.span ▸ hp.declared⟩ hrest)

/-- What is returned about a function. -/
def FunctionMatches (m : Matching) (r r' : Info × Header × Block Expr) : Prop :=
  r.1.Matches m r'.1 ∧ r.2.1.Matches m r'.2.1 ∧ r.2.2.Matches m r'.2.2

theorem inStep_functionWith {options : Options} {h h' : Header} {body body' : Block Expr}
    {walk walk' : Context → FrameId → Check (Block Expr)} (hfr : m.frame fr fr') (hi : i.Matches m i')
    (hh : h.Matches m h') (hbody : body.Matches m body')
    (hwalk : ∀ n c c' fr fr', m ≤ n → c.Matches n c' → n.frame fr fr' →
      Check.InStep S n Block.Matches (walk c fr) (walk' c' fr')) :
    Check.InStep S m FunctionMatches (functionWith options fr i h body walk)
      (functionWith options fr' i' h' body' walk') := by
  unfold functionWith
  rw [hi.type.isSome]
  split
  · exact Check.inStep_pure ⟨hi, hh, hbody⟩
  refine (inStep_attempt (inStep_enterFunction sim hfr hh)).bind fun n o o' h₁ ho => ?_
  have hi := hi.mono h₁
  have hh := hh.mono h₁
  cases ho with
  | none => exact Check.inStep_pure ⟨hi, hh, hbody.mono h₁⟩
  | some he =>
    refine (inStep_bindParams sim he.frame hh.params he.params).bind fun l ps ps' h₂ hps => ?_
    refine Check.inStep_get fun st st' hst => ?_
    rw [hst.loops]
    refine Check.inStep_loops (fun _ => []) ?_
    have hreturns := h₂.type _ _ he.returns
    refine (hwalk l _ _ _ _ (le_trans h₁ h₂) (.within hreturns) (h₂.frame _ _ he.frame)).bind
      fun k b b' h₃ hb => ?_
    refine Check.inStep_loops (fun _ => st.loops) ?_
    have hi := hi.mono (le_trans h₂ h₃)
    refine inStep_node sim hi ?_ fun q j j' h₄ hj =>
      ⟨hj, ((hh.mono h₂).withParams hps).mono (le_trans h₃ h₄), hb.mono h₄⟩
    refine (inStep_expectBlock sim hb (h₃.type _ _ hreturns)).bind fun q _ _ h₄ _ => ?_
    have hsignature := (le_trans (le_trans h₂ h₃) h₄).type _ _ he.signature
    exact Action.inStep_pure ((hi.mono h₄).resolve hsignature false false)

/-- A condition is checked, and has to be a truth value. -/
private theorem inStep_condition {γ δ : Type} {R : Matching → γ → δ → Prop} {a b : Check Expr} {f : Expr → Check γ}
    {g : Expr → Check δ} (h : Check.InStep S m Expr.Matches a b)
    (hf : ∀ n e e', m ≤ n → e.Matches n e' → Check.InStep S n R (f e) (g e')) :
    Check.InStep S m R (a >>= fun e => do demand (expectExpr e TypeId.bool); f e)
      (b >>= fun e => do demand (expectExpr e TypeId.bool); g e) := by
  refine h.bind fun n e e' h₁ he => ?_
  refine (inStep_demand (.intro fun _ _ hs => inStep_expectExpr sim he (sim.primitive hs (by decide)))).bind
    fun l _ _ h₂ _ => ?_
  exact hf l e e' (le_trans h₁ h₂) (he.mono h₂)

/-- The rule of a loop, whose body has no value. -/
private theorem inStep_loopRule {b b' : Block Expr} {t : TypeId} (hi : i.Matches m i') (hb : b.Matches m b')
    (ht : t < Types.primitives.length) :
    Action.InStep S m Info.Matches (do Action.expectBlock b TypeId.void; return i.resolve t false false)
      (do Action.expectBlock b' TypeId.void; return i'.resolve t false false) :=
  .intro fun _ _ hs => (inStep_expectBlock sim hb (sim.primitive hs (by decide))).bind fun _ _ _ h₁ _ =>
    .intro fun _ _ hs => Action.inStep_pure ((hi.mono h₁).resolve (sim.primitive hs ht) false false)

end

section

open Expr.Matches (monoAll monoFields monoOption)

variable {S : StoreRelation}

/-- Whatever matches an expression is walked through in step with it. -/
def InStepExpr (S : StoreRelation) (e : Expr) : Prop :=
  ∀ {m : Matching} {c c' : Context} {fr fr' : FrameId} {e' : Expr}, e.Matches m e' → c.Matches m c' → m.frame fr fr' →
    Check.InStep S m Expr.Matches (Check.expr c fr e) (Check.expr c' fr' e')

def InStepOption (S : StoreRelation) (e : Option Expr) : Prop :=
  ∀ {m : Matching} {c c' : Context} {fr fr' : FrameId} {e' : Option Expr}, Option.Rel (Expr.Matches m) e e' →
    c.Matches m c' → m.frame fr fr' →
      Check.InStep S m (fun n => Option.Rel (Expr.Matches n)) (Check.option c fr e) (Check.option c' fr' e')

def InStepExprs (S : StoreRelation) (es : List Expr) : Prop :=
  ∀ {m : Matching} {c c' : Context} {fr fr' : FrameId} {es' : List Expr}, List.Forall₂ (Expr.Matches m) es es' →
    c.Matches m c' → m.frame fr fr' →
      Check.InStep S m (fun n => List.Forall₂ (Expr.Matches n)) (Check.exprs c fr es) (Check.exprs c' fr' es')

def InStepBlock (S : StoreRelation) (b : Block Expr) : Prop :=
  ∀ {m : Matching} {c c' : Context} {fr fr' : FrameId} {b' : Block Expr}, b.Matches m b' → c.Matches m c' →
    m.frame fr fr' → Check.InStep S m Block.Matches (Check.block c fr b) (Check.block c' fr' b')

/-- The fields of two literals are walked through in step if the structs have fields that match. -/
def InStepFields (S : StoreRelation) (inits : List (FieldInit Expr)) : Prop :=
  ∀ {m : Matching} {c c' : Context} {fr fr' : FrameId} {inits' : List (FieldInit Expr)} {owner : String}
    {declared declared' : List (String × TypeId)} {seen : List String}, FieldsMatch m declared declared' →
      List.Forall₂ (FieldInit.Matches m (Expr.Matches m)) inits inits' → c.Matches m c' → m.frame fr fr' →
        Check.InStep S m (fun n => List.Forall₂ (FieldInit.Matches n (Expr.Matches n)))
          (Check.fields c fr owner declared seen inits) (Check.fields c' fr' owner declared' seen inits')

private theorem inStep_identifier (sim : Simulation S) {i : Info} {name : String} {v : Option Variable} :
    InStepExpr S (.identifier i name v) := by
  intro m c c' fr fr' e' he hc hfr
  have hself := he
  cases he with
  | identifier hi hv =>
    rw [Check.expr, Check.expr]
    refine inStep_unknown hi hself ?_
    refine (inStep_attempt (inStep_identifierRule sim hfr hi)).bind fun n o o' h₁ ho => ?_
    cases ho with
    | none => exact Check.inStep_pure (hself.mono h₁)
    | some hv =>
      exact inStep_node sim (hi.mono h₁) (Action.inStep_pure hv.2) fun _ _ _ h₂ hj =>
        .identifier hj (.some (hv.1.mono h₂))

private theorem inStep_member (sim : Simulation S) {i : Info} {base : Expr} {name : String} {s : Span} {index : Nat}
    (ihbase : InStepExpr S base) : InStepExpr S (.member i base name s index) := by
  intro m c c' fr fr' e' he hc hfr
  have hself := he
  cases he with
  | member hi hbase hs =>
    rw [Check.expr, Check.expr]
    refine inStep_unknown hi hself ?_
    refine (ihbase hbase hc hfr).bind fun n base base' h₁ hbase => ?_
    have hs := h₁.span ▸ hs
    refine (inStep_attempt (inStep_memberRule sim (hi.mono h₁) hbase hs)).bind fun l o o' h₂ ho => ?_
    have hi := hi.mono (le_trans h₁ h₂)
    have hs := h₂.span ▸ hs
    cases ho with
    | none => exact Check.inStep_pure (.member hi (hbase.mono h₂) hs)
    | @some p p' hp =>
      obtain ⟨index, j⟩ := p
      obtain ⟨index', j'⟩ := p'
      obtain ⟨rfl, hj⟩ : index' = index ∧ j.Matches l j' := hp
      exact inStep_node sim hi (Action.inStep_pure hj) fun _ _ _ h₃ hj =>
        .member hj (hbase.mono (le_trans h₂ h₃)) (h₃.span ▸ hs)

private theorem inStep_call (sim : Simulation S) {i : Info} {callee : Expr} {args : List Expr}
    (ihcallee : InStepExpr S callee)
    (ihargs : InStepExprs S args) : InStepExpr S (.call i callee args) := by
  intro m c c' fr fr' e' he hc hfr
  have hself := he
  cases he with
  | call hi hcallee hargs =>
    rw [Check.expr, Check.expr]
    refine inStep_unknown hi hself ?_
    refine (ihcallee hcallee hc hfr).bind fun n callee callee' h₁ hcallee => ?_
    refine (ihargs (monoAll hargs h₁) (hc.mono h₁) (h₁.frame _ _ hfr)).bind fun l args args' h₂ hargs => ?_
    have hi := hi.mono (le_trans h₁ h₂)
    have hcallee := hcallee.mono h₂
    exact inStep_node sim hi (inStep_callRule sim hi hcallee hargs) fun _ _ _ h₃ hj =>
      .call hj (hcallee.mono h₃) (monoAll hargs h₃)

private theorem inStep_builtinCall (sim : Simulation S) {i : Info} {name : String} {args : List Expr}
    (ihargs : InStepExprs S args) : InStepExpr S (.builtinCall i name args) := by
  intro m c c' fr fr' e' he hc hfr
  have hself := he
  cases he with
  | builtinCall hi hargs =>
    rw [Check.expr, Check.expr]
    refine inStep_unknown hi hself ?_
    refine (inStep_attempt (inStep_findBuiltin sim hi)).bind fun n o o' h₁ ho => ?_
    cases ho with
    | none => exact Check.inStep_pure (hself.mono h₁)
    | some hb =>
      subst hb
      dsimp only
      rw [hc.options]
      refine (ihargs (monoAll hargs h₁) (hc.mono h₁) (h₁.frame _ _ hfr)).bind fun l args args' h₂ hargs => ?_
      have hi := hi.mono (le_trans h₁ h₂)
      exact inStep_node sim hi (inStep_builtinRule sim hi hargs) fun _ _ _ h₃ hj => .builtinCall hj (monoAll hargs h₃)

private theorem inStep_unary (sim : Simulation S) {i : Info} {op : UnaryOp} {operand : Expr}
    (ihoperand : InStepExpr S operand) :
    InStepExpr S (.unary i op operand) := by
  intro m c c' fr fr' e' he hc hfr
  have hself := he
  cases he with
  | unary hi hoperand =>
    rw [Check.expr, Check.expr]
    refine inStep_unknown hi hself ?_
    refine (ihoperand hoperand hc hfr).bind fun n _ _ h₁ hoperand => ?_
    have hi := hi.mono h₁
    exact inStep_node sim hi (inStep_unaryRule sim hi hoperand) fun _ _ _ h₂ hj => .unary hj (hoperand.mono h₂)

private theorem inStep_binary (sim : Simulation S) {i : Info} {op : BinaryOp} {lhs rhs : Expr}
    (ihlhs : InStepExpr S lhs)
    (ihrhs : InStepExpr S rhs) : InStepExpr S (.binary i op lhs rhs) := by
  intro m c c' fr fr' e' he hc hfr
  have hself := he
  cases he with
  | binary hi hlhs hrhs =>
    rw [Check.expr, Check.expr]
    refine inStep_unknown hi hself ?_
    refine (ihlhs hlhs hc hfr).bind fun n _ _ h₁ hlhs => ?_
    refine (ihrhs (hrhs.mono h₁) (hc.mono h₁) (h₁.frame _ _ hfr)).bind fun l _ _ h₂ hrhs => ?_
    have hi := hi.mono (le_trans h₁ h₂)
    have hlhs := hlhs.mono h₂
    exact inStep_node sim hi (inStep_binaryRule sim hi hlhs hrhs) fun _ _ _ h₃ hj =>
      .binary hj (hlhs.mono h₃) (hrhs.mono h₃)

private theorem inStep_assignment (sim : Simulation S) {i : Info} {target source : Expr}
    (ihtarget : InStepExpr S target)
    (ihsource : InStepExpr S source) : InStepExpr S (.assignment i target source) := by
  intro m c c' fr fr' e' he hc hfr
  have hself := he
  cases he with
  | assignment hi htarget hsource =>
    rw [Check.expr, Check.expr]
    refine inStep_unknown hi hself ?_
    refine (ihtarget htarget hc hfr).bind fun n _ _ h₁ htarget => ?_
    refine (ihsource (hsource.mono h₁) (hc.mono h₁) (h₁.frame _ _ hfr)).bind fun l _ _ h₂ hsource => ?_
    have hi := hi.mono (le_trans h₁ h₂)
    have htarget := htarget.mono h₂
    exact inStep_node sim hi (inStep_assignmentRule sim hi htarget hsource) fun _ _ _ h₃ hj =>
      .assignment hj (htarget.mono h₃) (hsource.mono h₃)

private theorem inStep_structLiteral (sim : Simulation S) {i : Info} {name : String} {inits : List (FieldInit Expr)}
    (ihinits : InStepFields S inits) : InStepExpr S (.structLiteral i name inits) := by
  intro m c c' fr fr' e' he hc hfr
  have hself := he
  cases he with
  | structLiteral hi hinits =>
    rw [Check.expr, Check.expr]
    refine inStep_unknown hi hself ?_
    refine (inStep_attempt (inStep_literalStruct sim hfr hi)).bind fun n o o' h₁ ho => ?_
    cases ho with
    | none => exact Check.inStep_pure (hself.mono h₁)
    | @some p p' hp =>
      obtain ⟨t, owner, declared⟩ := p
      obtain ⟨t', owner', declared'⟩ := p'
      obtain ⟨ht, rfl, hdeclared⟩ : n.type t t' ∧ owner' = owner ∧ FieldsMatch n declared declared' := hp
      refine (ihinits hdeclared (monoFields hinits h₁) (hc.mono h₁) (h₁.frame _ _ hfr)).bind
        fun l inits inits' h₂ hinits => ?_
      have hi := hi.mono (le_trans h₁ h₂)
      exact inStep_node sim hi (inStep_literalRule sim hi (h₂.type _ _ ht) (hdeclared.mono h₂) hinits)
          fun _ _ _ h₃ hj =>
        .structLiteral hj (monoFields hinits h₃)

private theorem inStep_letBinding (sim : Simulation S) {i : Info} {v : Holder Variable} {declared : Option TypeExpr}
    {init : Expr} (ihinit : InStepExpr S init) : InStepExpr S (.letBinding i v declared init) := by
  intro m c c' fr fr' e' he hc hfr
  have hself := he
  cases he with
  | letBinding hi hv hdeclared hinit =>
    rw [Check.expr, Check.expr]
    refine inStep_unknown hi hself ?_
    refine (ihinit hinit hc hfr).bind fun n _ _ h₁ hinit => ?_
    have hv := hv.imp fun _ _ h => h.mono h₁
    have hdeclared := h₁.span ▸ hdeclared
    have hfr := h₁.frame _ _ hfr
    refine (inStep_attempt (inStep_letRule sim hfr hv hdeclared hinit)).bind fun l o o' h₂ ho => ?_
    have hi := hi.mono (le_trans h₁ h₂)
    have hinit := hinit.mono h₂
    have hdeclared := h₂.span ▸ hdeclared
    cases ho with
    | none => exact Check.inStep_pure (.letBinding hi (hv.imp fun _ _ h => h.mono h₂) hdeclared hinit)
    | some hbound =>
      have hv := hv.replace hbound
      refine (inStep_attempt ((sim.declare (h₂.frame _ _ hfr) hbound).bind fun k _ _ h₃ _ =>
        inStep_lifted (hv.imp fun _ _ h => h.mono h₃).take)).bind fun k o o' h₃ ho => ?_
      have hi := hi.mono h₃
      have hinit := hinit.mono h₃
      have hdeclared := h₃.span ▸ hdeclared
      cases ho with
      | none => exact Check.inStep_pure (.letBinding hi (hv.imp fun _ _ h => h.mono h₃) hdeclared hinit)
      | some htaken =>
        refine inStep_node sim hi (.intro fun _ _ hs => Action.inStep_pure (hi.resolve (sim.primitive hs (by decide))
          false false)) fun _ _ _ h₄ hj => ?_
        exact .letBinding hj (.borrowed (htaken.mono h₄)) (h₄.span ▸ hdeclared) (hinit.mono h₄)

private theorem inStep_ifElse (sim : Simulation S) {i : Info} {cond : Expr} {body : Block Expr} {other : Option Expr}
    (ihcond : InStepExpr S cond) (ihbody : InStepBlock S body) (ihother : InStepOption S other) :
    InStepExpr S (.ifElse i cond body other) := by
  intro m c c' fr fr' e' he hc hfr
  have hself := he
  cases he with
  | ifElse hi hcond hbody hother =>
    rw [Check.expr, Check.expr]
    refine inStep_unknown hi hself ?_
    refine inStep_condition sim (ihcond hcond hc hfr) fun n _ _ h₁ hcond => ?_
    have hfr := h₁.frame _ _ hfr
    refine (ihbody (hbody.mono h₁) (hc.mono h₁) hfr).bind fun l _ _ h₂ hbody => ?_
    have h₁ := le_trans h₁ h₂
    refine (ihother (monoOption hother h₁) (hc.mono h₁) (h₂.frame _ _ hfr)).bind fun k _ _ h₃ hother => ?_
    have hi := hi.mono (le_trans h₁ h₃)
    have hbody := hbody.mono h₃
    exact inStep_node sim hi (inStep_ifRule sim hi hbody hother) fun _ _ _ h₄ hj =>
      .ifElse hj (hcond.mono (le_trans h₂ (le_trans h₃ h₄))) (hbody.mono h₄) (monoOption hother h₄)

private theorem inStep_whileLoop (sim : Simulation S) {i : Info} {cond : Expr} {body : Block Expr}
    (ihcond : InStepExpr S cond)
    (ihbody : InStepBlock S body) : InStepExpr S (.whileLoop i cond body) := by
  intro m c c' fr fr' e' he hc hfr
  have hself := he
  cases he with
  | whileLoop hi hcond hbody =>
    rw [Check.expr, Check.expr]
    refine inStep_unknown hi hself ?_
    refine inStep_condition sim (ihcond hcond hc hfr) fun n _ _ h₁ hcond => ?_
    refine Check.inStep_loops (false :: ·) ?_
    refine (ihbody (hbody.mono h₁) (hc.mono h₁) (h₁.frame _ _ hfr)).bind fun l _ _ h₂ hbody => ?_
    refine Check.inStep_exitLoop fun _ => ?_
    have hi := hi.mono (le_trans h₁ h₂)
    exact inStep_node sim hi (inStep_loopRule sim hi hbody (by decide)) fun _ _ _ h₃ hj =>
      .whileLoop hj (hcond.mono (le_trans h₂ h₃)) (hbody.mono h₃)

private theorem inStep_endlessLoop (sim : Simulation S) {i : Info} {body : Block Expr} (ihbody : InStepBlock S body) :
    InStepExpr S (.endlessLoop i body) := by
  intro m c c' fr fr' e' he hc hfr
  have hself := he
  cases he with
  | endlessLoop hi hbody =>
    rw [Check.expr, Check.expr]
    refine inStep_unknown hi hself ?_
    refine Check.inStep_loops (false :: ·) ?_
    refine (ihbody hbody hc hfr).bind fun n _ _ h₁ hbody => ?_
    refine Check.inStep_exitLoop fun left => ?_
    exact inStep_node sim (hi.mono h₁) (inStep_loopRule sim (hi.mono h₁) hbody (by cases left <;> decide))
      fun _ _ _ h₂ hj => .endlessLoop hj (hbody.mono h₂)

/-- Two jumps of one kind, where what they note about the loops around them is `change`. -/
private theorem inStep_jump (sim : Simulation S) {m : Matching} {c c' : Context} {fr fr' : FrameId} {make : Info → Expr}
    {keyword : String} {i i' : Info} (change : List Bool → List Bool) (hi : i.Matches m i')
    (hexpr : ∀ c fr i, Check.expr c fr (make i) =
      jump make keyword (modify fun st => { st with loops := change st.loops }) i)
    (hmake : ∀ n j j', j.Matches n j' → (make j).Matches n (make j')) :
    Check.InStep S m Expr.Matches (Check.expr c fr (make i)) (Check.expr c' fr' (make i')) := by
  rw [hexpr, hexpr, jump, jump]
  refine inStep_unknown hi (hmake m i i' hi) ?_
  refine Check.inStep_get fun st st' hst => ?_
  rw [hst.loops]
  refine Check.inStep_loops change ?_
  exact inStep_node sim hi (inStep_jumpRule sim hi) fun n j j' _ hj => hmake n j j' hj

private theorem inStep_leaveLoop (sim : Simulation S) {i : Info} : InStepExpr S (.leaveLoop i) := by
  intro m c c' fr fr' e' he hc hfr
  cases he with
  | leaveLoop hi =>
      exact inStep_jump sim (List.modifyHead fun _ => true) hi (fun _ _ _ => expr_leaveLoop) fun _ _ _ => .leaveLoop

private theorem inStep_nextRound (sim : Simulation S) {i : Info} : InStepExpr S (.nextRound i) := by
  intro m c c' fr fr' e' he hc hfr
  cases he with
  | nextRound hi =>
    -- nothing is noted about the loop that goes on
    exact inStep_jump sim id hi (fun _ _ _ => expr_nextRound) fun _ _ _ => .nextRound

private theorem inStep_leaveFunction (sim : Simulation S) {i : Info} {result : Option Expr}
    (ihresult : InStepOption S result) :
    InStepExpr S (.leaveFunction i result) := by
  intro m c c' fr fr' e' he hc hfr
  have hself := he
  cases he with
  | @leaveFunction _ i' _ _ hi hresult =>
    rw [Check.expr, Check.expr]
    refine inStep_unknown hi hself ?_
    have hrule : ∀ n r r', m ≤ n → Option.Rel (Expr.Matches n) r r' → Check.InStep S n Expr.Matches
        (do return .leaveFunction (← conclude i (returnRule i c.returns r)) r)
        (do return .leaveFunction (← conclude i' (returnRule i' c'.returns r')) r') := by
      intro n r r' h₁ hresult
      have hi := hi.mono h₁
      exact inStep_node sim hi (inStep_returnRule sim hi (hc.mono h₁).returns hresult) fun _ _ _ h₂ hj =>
        .leaveFunction hj (monoOption hresult h₂)
    rw [hc.returns.isSome]
    split
    · exact (ihresult hresult hc hfr).bind hrule
    · exact hrule m _ _ (le_refl m) hresult

private theorem inStep_function (sim : Simulation S) {i : Info} {h : Header} {body : Block Expr}
    (ihbody : InStepBlock S body) :
    InStepExpr S (.function i h body) := by
  intro m c c' fr fr' e' he hc hfr
  have hself := he
  cases he with
  | function hi hh hbody =>
    rw [Check.expr, Check.expr]
    refine inStep_unknown hi hself ?_
    refine (inStep_attempt (inStep_enterNested sim hfr hh)).bind fun n o o' h₁ ho => ?_
    cases ho with
    | none => exact Check.inStep_pure (hself.mono h₁)
    | some hown =>
      dsimp only
      rw [hc.options]
      refine (inStep_functionWith sim hown (hi.mono h₁) (hh.mono h₁) (hbody.mono h₁)
        fun l d d' fr fr' h₂ hd hfr => ihbody (hbody.mono (le_trans h₁ h₂)) hd hfr).bind fun l r r' _ hr => ?_
      obtain ⟨i, h, body⟩ := r
      obtain ⟨i', h', body'⟩ := r'
      exact Check.inStep_pure (.function hr.1 hr.2.1 hr.2.2)

mutual

/-- Expressions that match are checked in step. -/
private theorem inStep_expr (sim : Simulation S) (e : Expr) : InStepExpr S e := by
  cases e with
  | integer i v =>
    intro m c c' fr fr' e' he hc hfr
    have hself := he
    cases he with
    | integer hi =>
      rw [Check.expr, Check.expr]
      refine inStep_unknown hi hself ?_
      exact inStep_node sim hi (.intro fun _ _ hs => Action.inStep_pure (hi.fold (sim.primitive hs (by decide)) _))
        fun _ _ _ _ hj => .integer hj
  | float i x =>
    intro m c c' fr fr' e' he hc hfr
    have hself := he
    cases he with
    | float hi =>
      rw [Check.expr, Check.expr]
      refine inStep_unknown hi hself ?_
      exact inStep_node sim hi (.intro fun _ _ hs => Action.inStep_pure (hi.fold (sim.primitive hs (by decide)) _))
        fun _ _ _ _ hj => .float hj
  | boolean i b =>
    intro m c c' fr fr' e' he hc hfr
    have hself := he
    cases he with
    | boolean hi =>
      rw [Check.expr, Check.expr]
      refine inStep_unknown hi hself ?_
      exact inStep_node sim hi (.intro fun _ _ hs => Action.inStep_pure (hi.fold (sim.primitive hs (by decide)) _))
        fun _ _ _ _ hj => .boolean hj
  | identifier i name v => exact inStep_identifier sim
  | member i base name s index => exact inStep_member sim (inStep_expr sim base)
  | call i callee args => exact inStep_call sim (inStep_expr sim callee) (inStep_exprs sim args)
  | builtinCall i name args => exact inStep_builtinCall sim (inStep_exprs sim args)
  | unary i op operand => exact inStep_unary sim (inStep_expr sim operand)
  | binary i op lhs rhs => exact inStep_binary sim (inStep_expr sim lhs) (inStep_expr sim rhs)
  | assignment i target source => exact inStep_assignment sim (inStep_expr sim target) (inStep_expr sim source)
  | structLiteral i name inits => exact inStep_structLiteral sim (inStep_fields sim inits)
  | letBinding i v declared init => exact inStep_letBinding sim (inStep_expr sim init)
  | block b =>
    intro m c c' fr fr' e' he hc hfr
    obtain ⟨b', rfl⟩ : ∃ b', e' = .block b' := by cases he; exact ⟨_, rfl⟩
    rw [Check.expr, Check.expr]
    refine inStep_unknown he.info he ?_
    exact (inStep_block sim b he hc hfr).bind fun _ _ _ _ hb => Check.inStep_pure hb
  | ifElse i cond body other =>
    exact inStep_ifElse sim (inStep_expr sim cond) (inStep_block sim body) (inStep_option sim other)
  | whileLoop i cond body => exact inStep_whileLoop sim (inStep_expr sim cond) (inStep_block sim body)
  | endlessLoop i body => exact inStep_endlessLoop sim (inStep_block sim body)
  | leaveLoop i => exact inStep_leaveLoop sim
  | nextRound i => exact inStep_nextRound sim
  | leaveFunction i result => exact inStep_leaveFunction sim (inStep_option sim result)
  | function i h body => exact inStep_function sim (inStep_block sim body)
termination_by structural e

private theorem inStep_option (sim : Simulation S) (e : Option Expr) : InStepOption S e := by
  intro m c c' fr fr' e' he hc hfr
  match e with
  | none =>
    cases he
    rw [Check.option, Check.option]
    exact Check.inStep_pure .none
  | some e =>
    cases he with
    | some he =>
      rw [Check.option, Check.option]
      exact (inStep_expr sim e he hc hfr).bind fun _ _ _ _ he => Check.inStep_pure (.some he)
termination_by structural e

private theorem inStep_exprs (sim : Simulation S) (es : List Expr) : InStepExprs S es := by
  intro m c c' fr fr' es' he hc hfr
  match es with
  | [] =>
    cases he
    rw [Check.exprs, Check.exprs]
    exact Check.inStep_pure .nil
  | e :: rest =>
    cases he with
    | cons he hrest =>
      rw [Check.exprs, Check.exprs]
      refine (inStep_expr sim e he hc hfr).bind fun n _ _ h₁ he => ?_
      refine (inStep_exprs sim rest (monoAll hrest h₁) (hc.mono h₁) (h₁.frame _ _ hfr)).bind fun l _ _ h₂ hrest => ?_
      exact Check.inStep_pure (.cons (he.mono h₂) hrest)
termination_by structural es

private theorem inStep_fields (sim : Simulation S) (inits : List (FieldInit Expr)) : InStepFields S inits := by
  intro m c c' fr fr' inits' owner declared declared' seen hdeclared hinits hc hfr
  match inits with
  | [] =>
    cases hinits
    rw [Check.fields, Check.fields]
    exact Check.inStep_pure .nil
  | ⟨name, s, value⟩ :: rest =>
    cases hinits with
    | cons hf hrest =>
      cases hf with
      | mk hs he =>
        rw [Check.fields, Check.fields]
        refine (inStep_attempt (inStep_fieldRule sim hdeclared hs)).bind fun n o o' h₁ ho => ?_
        have hs := h₁.span ▸ hs
        have hrest := monoFields hrest h₁
        cases ho with
        | none => exact Check.inStep_pure (.cons ⟨hs, he.mono h₁⟩ hrest)
        | some ht =>
          refine (inStep_expr sim value (he.mono h₁) (hc.mono h₁) (h₁.frame _ _ hfr)).bind fun l _ _ h₂ he => ?_
          refine (inStep_demand (inStep_expectExpr sim he (h₂.type _ _ ht))).bind fun k _ _ h₃ _ => ?_
          have h₂ := le_trans h₂ h₃
          have h₁ := le_trans h₁ h₂
          refine (inStep_fields sim rest (hdeclared.mono h₁) (monoFields hrest h₂) (hc.mono h₁) (h₁.frame _ _ hfr)).bind
            fun q _ _ h₄ hrest => ?_
          exact Check.inStep_pure (.cons ⟨(le_trans h₂ h₄).span ▸ hs, he.mono (le_trans h₃ h₄)⟩ hrest)
termination_by structural inits

theorem inStep_block (sim : Simulation S) (b : Block Expr) : InStepBlock S b := by
  intro m c c' fr fr' b' hb hc hfr
  match b with
  | ⟨i, entered, stmts, tail⟩ =>
    have hself := hb
    cases hb with
    | block hi hentered hstmts htail =>
      rw [Check.block, Check.block]
      refine inStep_unknown hi hself ?_
      refine (inStep_attempt (sim.nest hfr)).bind fun n o o' h₁ ho => ?_
      cases ho with
      | none => exact Check.inStep_pure (hself.mono h₁)
      | some hinner =>
        refine (inStep_exprs sim stmts (monoAll hstmts h₁) (hc.mono h₁) hinner).bind fun l _ _ h₂ hstmts => ?_
        have h₁ := le_trans h₁ h₂
        refine (inStep_option sim tail (monoOption htail h₁) (hc.mono h₁) (h₂.frame _ _ hinner)).bind
          fun k _ _ h₃ htail => ?_
        have hi := hi.mono (le_trans h₁ h₃)
        have hstmts := monoAll hstmts h₃
        refine inStep_node sim hi (inStep_blockRule sim hi hstmts htail) fun q _ _ h₄ hj => ?_
        exact .block hj (.some ((le_trans h₂ (le_trans h₃ h₄)).frame _ _ hinner)) (monoAll hstmts h₄)
          (monoOption htail h₄)
termination_by structural b

end

end

end RainCheck
