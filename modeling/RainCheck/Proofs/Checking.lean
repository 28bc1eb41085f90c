import RainCheck.Proofs.Walking

/-!
# Checking is sound

The walk through a fresh tree, one case for each kind of expression: it raises no fault, keeps the store sound and the
frames in step with the scopes, and if it comes to an end without a problem the tree is annotated.
-/

namespace RainCheck

open Check RainCheck.Action

variable {L : Listing} {functions : List Variable} {c : Context} {fr : FrameId} {σ : Scope} {st : CheckState}
  {ms : List Mention} {us : List Use}

/-! ### Nodes -/

/-- A node is annotated with what its rule says. -/
private theorem walks_node {ret : Option TypeId} {info : Info} {rule : Action Info} {make : Info → Expr}
    {P : TypeId → Store → Prop} (hs : st.Sound L)
    (h : st.stop = none → rule.Keeps L st.store (fun i s => ∃ t, i.Proper s t ∧ P t s) L.Allows)
    (hmake : ∀ i t s, st.stop = none → st.store.GrowsTo s → i.Typed s t → P t s → (make i).Annotated s ret fr) :
    Walks L fr {} (do return make (← conclude info rule)) st fun e s => e.Annotated s ret fr := by
  refine (walks_conclude hs h).followed fun i st' hgo hi => walks_pure (hgo.sound hs) fun hstop => ?_
  obtain ⟨t, ht, hP⟩ := hi hstop
  exact hmake i t st'.store (hgo.alive hstop) hgo.grows ht hP

/-- The settled type of a primitive. -/
theorem Store.Sound.settled {s : Store} (h : s.Sound L) {id : TypeId} {name : String}
    (hname : Types.primitives[id]? = some name) : s.Settled id :=
  Store.settled_of_entry ((h.types.primitives id name).mpr hname) rfl

/-! ### Functions -/

/-- A parameter that gets its type. -/
theorem Param.Fresh.declares {p : Param} {s : Store} {t : TypeId} (hp : p.Fresh) (ht : s.Settled t) :
    s.Declares L { p.binding with type := .borrowed t } := by
  simp only [Store.Declares, hp.1]
  exact ⟨t, rfl, ht⟩

theorem Param.Fresh.bare {p : Param} {t : TypeId} (hp : p.Fresh) :
    Variable.bare { p.binding with type := .borrowed t } = p.binding := by
  obtain ⟨⟨name, kind, mutable, span, type⟩, declared⟩ := p
  obtain ⟨-, rfl⟩ := hp
  rfl

/-- The parameters of a function are declared in its frame with their types. -/
theorem walks_bindParams {params : List Param} {types : List TypeId} (hs : st.Sound L) (hfr : fr < st.store.frames.size)
    (hparams : ∀ p ∈ params, p.Fresh) (htypes : ∀ t ∈ types, st.store.Settled t) (hlen : types.length = params.length) :
    Walks L fr ⟨[], [], params.map (·.binding)⟩ (bindParams fr params types) st
      fun ps _ => List.Forall₂ (fun p t => p.binding.type = .borrowed t) ps types := by
  induction params generalizing types st with
  | nil =>
    obtain rfl := List.length_eq_zero_iff.mp hlen
    exact walks_pure hs fun _ => .nil
  | cons p params ih =>
    match types with
    | [] => cases hlen
    | t :: types =>
      have hp := hparams p (by simp)
      rw [bindParams]
      refine walks_open hs rfl rfl fun _ => ?_
      have hdeclare : Walks L fr ⟨[], [], [p.binding]⟩ (demand (declare fr { p.binding with type := .borrowed t })) st
          fun _ _ => True := by
        refine walks_demand (P := fun _ => True) hs fun _ => ?_
        have hmoves : Moves L fr [] _ st.store _ _ _ := moves_declare hs.store hfr (hp.declares (htypes t (by simp)))
        rw [hp.bare] at hmoves
        exact hmoves.mono (fun _ _ h => ⟨h.1, h.2.1, trivial⟩) fun _ _ h => h
      change Walks L fr (⟨[], [], [p.binding]⟩ ++ ⟨[], [], params.map (·.binding)⟩) _ st _
      refine hdeclare.bind fun _ st₁ hgo₁ _ => ?_
      refine (ih (hgo₁.sound hs) (hgo₁.grows.frame_lt hfr) (fun q hq => hparams q (by simp [hq])) ?_ ?_).followed ?_
      · exact fun u hu => hgo₁.grows.settled (htypes u (by simp [hu]))
      · simpa using hlen
      · intro rest st₂ hgo₂ hrest
        exact walks_pure (hgo₂.sound (hgo₁.sound hs)) fun hstop => .cons rfl (hrest hstop)

/-- A function is checked in a frame that shows its surroundings. -/
theorem walks_function {options : Options} {own : FrameId} {span : Span} {header : Header} {body : Block Expr}
    {walk : Context → FrameId → Check (Block Expr)} (hr : Prepared L functions (Expr.mentionsBlock body) st)
    (hfr : fr < st.store.frames.size) (hshows : st.store.Shows own σ)
    (hlisted : L.Lists header.mentions) (hregistered : (st.store.function header.span).variableType.isSome = true)
    (hparams : ∀ p ∈ header.params, p.Fresh)
    (hwalk : ∀ c' fr' st', Ready L functions c' fr' (header.params.map (·.binding) :: σ) (Expr.mentionsBlock body) st' →
      Walks L fr' ⟨Expr.mentionsBlock body, us, []⟩ (walk c' fr') st'
        fun b s => (Expr.block b).Annotated s c'.returns fr') :
    Walks L fr ⟨Expr.mentionsBlock body, us, []⟩ (functionWith options own { span } header body walk) st
      fun r s => FunctionDecl.Annotated s ⟨r.1, r.2.1, r.2.2⟩ := by
  unfold functionWith
  simp only [Option.isSome_none, Bool.false_eq_true, if_false]
  -- everything happens in the frame of the parameters
  refine Walks.inside (g := st.store.frames.size)
    (p := {} ++ (⟨[], [], header.params.map (·.binding)⟩ ++ ⟨Expr.mentionsBlock body, us, []⟩)) ?_ (Nat.le_refl _) hfr
  have henter : Moves L st.store.frames.size [] [] st.store (enterFunction own header) _ _ :=
    moves_enterFunction hr.sound.store hr.sound.idle hshows hlisted hregistered
  refine (walks_attempt hr.sound (fun _ => henter) fun _ => .inl).attempted ?_ ?_
  · rintro ⟨sig, params, returns, frame⟩ st₁ hgo₁ hstop₁ ⟨hframe, hshows₁, he, hlen⟩
    dsimp only at hframe hshows₁ he hlen ⊢
    subst hframe
    obtain ⟨hsettled, -, hreturns⟩ := hgo₁.moves.sound.types.functionTypes sig params returns he
    have hr₁ : Ready L functions ⟨options, some returns⟩ _ ([] :: σ) (Expr.mentionsBlock body) st₁ :=
      hr.enter hgo₁ (Nat.le_refl _) (by rintro _ ⟨⟩; exact hreturns) hshows₁
    refine (walks_bindParams hr₁.sound hr₁.frame hparams (fun t ht => (hsettled t ht).2) hlen).bind ?_
    intro ps st₂ hgo₂ hps
    have hr₂ : Ready L functions _ _ (header.params.map (·.binding) :: σ) (Expr.mentionsBlock body) st₂ :=
      Ready.declare (show Ready L functions _ _ _ ([] ++ Expr.mentionsBlock body) st₁ from hr₁) hgo₂
    refine (walks_same hr₂.sound rfl rfl).after fun _ st₃ hgo₃ _ => ?_
    refine (walks_same (hr₂.step hgo₃).sound rfl rfl).after fun _ st₄ hgo₄ _ => ?_
    have hr₄ := (hr₂.step hgo₃).step hgo₄
    refine (hwalk _ _ st₄ hr₄).followed fun body' st₅ hgo₅ hbody => ?_
    refine (walks_same (hgo₅.sound hr₄.sound) rfl rfl).after fun _ st₆ hgo₆ _ => ?_
    have hs₆ := hgo₆.sound (hgo₅.sound hr₄.sound)
    have hg : st₁.store.GrowsTo st₆.store :=
      (((hgo₂.grows.trans hgo₃.grows).trans hgo₄.grows).trans hgo₅.grows).trans hgo₆.grows
    have hbody₆ := fun hstop => (hbody (hgo₆.alive hstop)).grow hgo₆.grows
    refine (walks_conclude (P := fun t s => t = sig ∧ s.Fits body'.info returns) hs₆ fun hstop => ?_).followed ?_
    · obtain ⟨t, ht⟩ := (hbody₆ hstop).typed
      refine (keeps_expectBlock hs₆.store ht (hg.settled hreturns).1).bind fun _ s hs hlearns hfits => ?_
      have hsig := Store.settled_of_entry (hlearns.toGrowsTo.same (hg.same he rfl) rfl) rfl
      exact keeps_pure hs ⟨sig, .resolve rfl hsig, rfl, hfits⟩
    · intro i st₇ hgo₇ hi
      refine walks_pure (hgo₇.sound hs₆) fun hstop => ?_
      obtain ⟨t, ht, rfl, hfits⟩ := hi hstop
      have halive₆ := hgo₇.alive hstop
      have halive₂ := hgo₃.alive (hgo₄.alive (hgo₅.alive (hgo₆.alive halive₆)))
      exact ⟨t, params, returns, _, (hg.trans hgo₇.grows).same he rfl, hps halive₂, (hbody₆ halive₆).grow hgo₇.grows,
        hfits, ht⟩
  · exact fun st₁ hgo₁ hne => walks_failed (hgo₁.sound hr.sound) hne

/-! ### Expressions -/

variable (L functions c fr σ) in
/-- An expression is walked through in every state that is ready for it, and is annotated afterwards. -/
def ChecksExpr (vs : List Variable) (e : Expr) : Prop :=
  ∀ st, Ready L functions c fr σ e.mentions st →
    Walks L fr ⟨e.mentions, e.uses functions σ, vs⟩ (Check.expr c fr e) st fun e' s => e'.Annotated s c.returns fr

variable (L functions c fr σ) in
/-- The same for expressions one behind the other. -/
def ChecksAll (vs : List Variable) (es : List Expr) : Prop :=
  ∀ st, Ready L functions c fr σ (Expr.mentionsAll es) st →
    Walks L fr ⟨Expr.mentionsAll es, Expr.usesAll functions σ es, vs⟩ (Check.exprs c fr es) st
      fun es' s => ∀ e ∈ es', e.Annotated s c.returns fr

variable (L functions c fr σ) in
/-- The same for an expression that may be left out. -/
def ChecksOption (e : Option Expr) : Prop :=
  ∀ st, Ready L functions c fr σ (Expr.optionMentions e) st →
    Walks L fr ⟨Expr.optionMentions e, Expr.optionUses functions σ e, []⟩ (Check.option c fr e) st
      fun e' s => ∀ x ∈ e', x.Annotated s c.returns fr

variable (L functions c fr σ) in
/-- The same for a block. -/
def ChecksBlock (b : Block Expr) : Prop :=
  ∀ st, Ready L functions c fr σ (Expr.mentionsBlock b) st →
    Walks L fr ⟨Expr.mentionsBlock b, Expr.usesBlock functions σ b, []⟩ (Check.block c fr b) st
      fun b' s => (Expr.block b').Annotated s c.returns fr

variable (L functions c fr σ) in
/-- The same for the fields of a struct literal, which are declared and given once. -/
def ChecksFields (inits : List (FieldInit Expr)) : Prop :=
  ∀ st owner declared seen, Ready L functions c fr σ (Expr.mentionsFields inits) st →
    (∀ d ∈ declared, st.store.Known d.2) →
    Walks L fr ⟨Expr.mentionsFields inits, Expr.usesFields functions σ inits, []⟩
      (Check.fields c fr owner declared seen inits) st
      fun inits' s => (∀ f ∈ inits', f.value.Annotated s c.returns fr) ∧
        (∀ f ∈ inits', ∃ u, (f.name, u) ∈ declared ∧ s.Fits f.value.info u) ∧ (inits'.map (·.name)).Nodup ∧
        ∀ f ∈ inits', f.name ∉ seen

variable {span : Span}

private theorem walks_constant {ret : Option TypeId} {v : Value} {make : Info → Expr} (hs : st.Sound L)
    (hmake : ∀ i s, i.Typed s v.type → (make i).Annotated s ret fr) :
    Walks L fr {} (do return make (← conclude { span } (return Info.fold { span } v.type v))) st
      fun e s => e.Annotated s ret fr := by
  refine walks_node (P := fun t _ => t = v.type) hs (fun _ => ?_) ?_
  · obtain ⟨name, he⟩ := hs.store.types.value v
    exact keeps_pure hs.store ⟨_, .fold (Store.settled_of_entry he rfl), rfl⟩
  · rintro i _ s - - hi rfl
    exact hmake i s hi

private theorem checks_identifier {name : String} :
    ChecksExpr L functions c fr σ [] (.identifier { span } name none) := by
  intro st hr
  have hs := hr.sound
  rw [Check.expr]
  refine walks_open hs rfl rfl fun hstop => ?_
  obtain ⟨r, hlookup, hbare⟩ := (hr.shows hstop).lookup hs.store.frames name
  change Walks L fr (⟨[.value span], [⟨span, name, σ⟩], []⟩ ++ {}) _ st _
  refine (walks_attempt hs (fun _ => (keeps_identifier hs.store hs.idle hr.frame rfl hlookup).moves) ?_).attempted ?_ ?_
  · rintro d (⟨rfl, rfl⟩ | ⟨v, -, hallows, -⟩)
    · exact .inr ⟨⟨span, name, σ⟩, by simp, rfl, hbare.symm⟩
    · exact .inl hallows
  · rintro ⟨v, found⟩ st₁ hgo₁ - ⟨-, t, htype, hproper⟩
    have hs₁ := hgo₁.sound hs
    refine walks_node (P := fun t s => (s.typeOf v).value? = some t) hs₁ (fun _ => ?_) ?_
    · exact keeps_pure hs₁.store ⟨t, hproper, htype⟩
    · exact fun i t s _ _ hi htype => .identifier hi htype
  · exact fun st₁ hgo₁ hne => walks_failed (hgo₁.sound hs) hne

private theorem checks_member {base : Expr} {name : String} {nameSpan : Span} {index : Nat}
    (hbase : ChecksExpr L functions c fr σ [] base) :
    ChecksExpr L functions c fr σ [] (.member { span } base name nameSpan index) := by
  intro st hr
  have hs := hr.sound
  rw [Check.expr]
  refine walks_open hs rfl rfl fun _ => (hbase st hr).followed fun base' st₁ hgo₁ hbase' => ?_
  have hs₁ := hgo₁.sound hs
  refine Walks.attempted (p := {}) (q := {}) (P := fun p s => ∃ u w decl fields t, base'.type? = some u ∧ s.Loads u w ∧
    s.typeAt? w = some (.struct decl (.resolved fields)) ∧ fields.findIdx? (·.1 = name) = some p.1 ∧
    fields[p.1]? = some (name, t) ∧ p.2.Proper s t) (walks_learn hs₁ fun hstop => ?_) ?_ ?_
  · obtain ⟨u, hu⟩ := (hbase' hstop).typed
    refine (keeps_member hs₁.store hs₁.idle rfl hu).mono ?_ fun _ h => h
    rintro p s - - ⟨w, decl, fields, t, h⟩
    exact ⟨u, w, decl, fields, t, hu.type, h⟩
  · rintro ⟨position, found⟩ st₂ hgo₂ hstop₂ ⟨u, w, decl, fields, t, hu, hload, hstruct, hindex, hfield, hproper⟩
    have hs₂ := hgo₂.sound hs₁
    have hbase₂ := (hbase' (hgo₂.alive hstop₂)).grow hgo₂.grows
    refine walks_node (P := fun t' _ => t' = t) hs₂ (fun _ => keeps_pure hs₂.store ⟨t, hproper, rfl⟩) ?_
    rintro i _ s - hg hi rfl
    exact .member (hbase₂.grow hg) hu (hg.loads hload) (hg.resolved hstruct) hindex hfield hi
  · exact fun st₂ hgo₂ hne => walks_failed (hgo₂.sound hs₁) hne

private theorem checks_call {callee : Expr} {args : List Expr} (hcallee : ChecksExpr L functions c fr σ [] callee)
    (hargs : ChecksAll L functions c fr σ [] args) : ChecksExpr L functions c fr σ [] (.call { span } callee args) := by
  intro st hr
  have hs := hr.sound
  rw [Check.expr]
  refine walks_open hs rfl rfl fun _ => ?_
  change Walks L fr (⟨callee.mentions, _, []⟩ ++ ⟨Expr.mentionsAll args, Expr.usesAll functions σ args, []⟩) _ st _
  refine (hcallee st hr.left).bind fun callee' st₁ hgo₁ hcallee' => ?_
  refine (hargs st₁ (hr.next hgo₁)).followed fun args' st₂ hgo₂ hargs' => ?_
  have hs₂ := hgo₂.sound (hgo₁.sound hs)
  have hcallee₂ := fun hstop => (hcallee' (hgo₂.alive hstop)).grow hgo₂.grows
  refine walks_node (P := fun t s => ∃ f params, callee'.type? = some f ∧ s.typeAt? f = some (.function params t) ∧
    List.Forall₂ (fun e p => s.Fits (Expr.info e) p) args' params) hs₂ (fun hstop => ?_) ?_
  · obtain ⟨f, hf⟩ := (hcallee₂ hstop).typed
    refine (keeps_call hs₂.store rfl hf fun e he => (hargs' hstop e he).typed).mono ?_ fun _ h => h
    rintro i s - - ⟨params, returns, he, hfits, hproper⟩
    exact ⟨returns, hproper, f, params, hf.type, he, hfits⟩
  · rintro i t s hstop hg hi ⟨f, params, hf, he, hfits⟩
    exact .call ((hcallee₂ hstop).grow hg) (fun e he => (hargs' hstop e he).grow hg) hf he hfits hi

private theorem checks_builtinCall {name : String} {args : List Expr} (hargs : ChecksAll L functions c fr σ [] args) :
    ChecksExpr L functions c fr σ [] (.builtinCall { span } name args) := by
  intro st hr
  have hs := hr.sound
  obtain ⟨hname, -⟩ := Listing.lists_cons.mp hr.listed
  rw [Check.expr]
  refine walks_open hs rfl rfl fun _ => ?_
  refine Walks.mono (p := {} ++ ⟨Expr.mentionsAll args, Expr.usesAll functions σ args, []⟩) ?_
    ⟨fun _ => List.mem_cons_of_mem _, fun _ h => h, rfl⟩
  refine (walks_learn hs fun _ => keeps_findBuiltin hs.store hname).attempted ?_ ?_
  · intro b st₁ hgo₁ _ hb
    have hr₁ : Ready L functions c fr σ (Expr.mentionsAll args) st₁ := (hr.sub (List.sublist_cons_self _ _)).step hgo₁
    refine (hargs st₁ hr₁).followed fun args' st₂ hgo₂ hargs' => ?_
    have hs₂ := hgo₂.sound hr₁.sound
    refine walks_node (P := fun t s => args'.length = b.family.arity ∧ ∃ u, (∀ e ∈ args', ∃ t, e.type? = some t ∧
      s.Loads t u) ∧ b.family.takes u = true ∧ t = b.family.result u) hs₂ (fun hstop => ?_) ?_
    · refine (keeps_builtin hs₂.store rfl fun e he => (hargs' hstop e he).typed).mono ?_ fun _ h => h
      rintro i s - - ⟨harity, u, hloads, htakes, hproper⟩
      exact ⟨_, hproper, harity, u, hloads, htakes, rfl⟩
    · rintro i _ s hstop hg hi ⟨harity, u, hloads, htakes, rfl⟩
      exact .builtinCall hb (fun e he => (hargs' hstop e he).grow hg) harity hloads htakes hi
  · exact fun st₁ hgo₁ hne => walks_failed (hgo₁.sound hs) hne

private theorem checks_unary {op : UnaryOp} {operand : Expr} (hoperand : ChecksExpr L functions c fr σ [] operand) :
    ChecksExpr L functions c fr σ [] (.unary { span } op operand) := by
  intro st hr
  rw [Check.expr]
  refine walks_open hr.sound rfl rfl fun _ => (hoperand st hr).followed fun operand' st₁ hgo₁ hoperand' => ?_
  have hs₁ := hgo₁.sound hr.sound
  -- the two negations differ in the types they take only
  have hnegation : ∀ (expected : String) (takes : TypeId → Bool), op ≠ .address →
      (∀ t, takes t = true → t = TypeId.bool ∨ TypeId.isNumeric t = true) →
      Walks L fr {}
        (do return Expr.unary (← conclude { span } (negationRule { span } op operand' expected takes)) op operand')
        st₁ fun e s => e.Annotated s c.returns fr := by
    intro expected takes hop htakes
    refine walks_node (P := fun t s => ∃ u, operand'.type? = some u ∧ s.Loads u t) hs₁ (fun hstop => ?_) ?_
    · obtain ⟨u, hu⟩ := (hoperand' hstop).typed
      refine (keeps_negation hs₁.store rfl hu htakes).mono ?_ fun _ h => h
      rintro i s - - ⟨t, hload, hproper⟩
      exact ⟨t, hproper, u, hu.type, hload⟩
    · rintro i t s hstop hg hi ⟨u, hu, hload⟩
      exact .negation hop ((hoperand' hstop).grow hg) hu hload hi
  cases op with
  | negate => exact hnegation _ _ (by simp) fun _ => .inr
  | invert => exact hnegation _ _ (by simp) fun _ => isLogical_scalar
  | address =>
    refine walks_node (P := fun t s => operand'.hasLocation = .ok true ∧ ∃ u, operand'.type? = some u ∧
      s.typeAt? t = some (.reference u)) hs₁ (fun hstop => ?_) ?_
    · obtain ⟨u, hu⟩ := (hoperand' hstop).typed
      refine (keeps_address hs₁.store rfl (hoperand' hstop).hasLocation hu).mono ?_ fun _ h => h
      rintro i s - - ⟨hlocation, t, ht, hproper⟩
      exact ⟨t, hproper, hlocation, u, hu.type, ht⟩
    · rintro i t s hstop hg hi ⟨hlocation, u, hu, ht⟩
      exact .address ((hoperand' hstop).grow hg) hlocation hu ht hi

private theorem checks_binary {op : BinaryOp} {lhs rhs : Expr} (hlhs : ChecksExpr L functions c fr σ [] lhs)
    (hrhs : ChecksExpr L functions c fr σ [] rhs) : ChecksExpr L functions c fr σ [] (.binary { span } op lhs rhs) := by
  intro st hr
  rw [Check.expr]
  refine walks_open hr.sound rfl rfl fun _ => ?_
  change Walks L fr (⟨lhs.mentions, _, []⟩ ++ ⟨rhs.mentions, rhs.uses functions σ, []⟩) _ st _
  refine (hlhs st hr.left).bind fun lhs' st₁ hgo₁ hlhs' => ?_
  refine (hrhs st₁ (hr.next hgo₁)).followed fun rhs' st₂ hgo₂ hrhs' => ?_
  have hs₂ := hgo₂.sound (hgo₁.sound hr.sound)
  have hlhs₂ := fun hstop => (hlhs' (hgo₂.alive hstop)).grow hgo₂.grows
  refine walks_node (P := fun t s => ∃ u v w, lhs'.type? = some u ∧ rhs'.type? = some v ∧ s.Loads u w ∧ s.Loads v w ∧
    (operandTypes op).2 w = true ∧ t = if op.isComparison then TypeId.bool else w) hs₂ (fun hstop => ?_) ?_
  · obtain ⟨u, hu⟩ := (hlhs₂ hstop).typed
    obtain ⟨v, hv⟩ := (hrhs' hstop).typed
    refine (keeps_binary hs₂.store rfl hu hv).mono ?_ fun _ h => h
    rintro i s - - ⟨w, hleft, hright, htakes, hproper⟩
    exact ⟨_, hproper, u, v, w, hu.type, hv.type, hleft, hright, htakes, rfl⟩
  · rintro i _ s hstop hg hi ⟨u, v, w, hu, hv, hleft, hright, htakes, rfl⟩
    exact .binary ((hlhs₂ hstop).grow hg) ((hrhs' hstop).grow hg) hu hv hleft hright htakes hi

private theorem checks_assignment {target source : Expr} (htarget : ChecksExpr L functions c fr σ [] target)
    (hsource : ChecksExpr L functions c fr σ [] source) :
    ChecksExpr L functions c fr σ [] (.assignment { span } target source) := by
  intro st hr
  rw [Check.expr]
  refine walks_open hr.sound rfl rfl fun _ => ?_
  change Walks L fr (⟨target.mentions, _, []⟩ ++ ⟨source.mentions, source.uses functions σ, []⟩) _ st _
  refine (htarget st hr.left).bind fun target' st₁ hgo₁ htarget' => ?_
  refine (hsource st₁ (hr.next hgo₁)).followed fun source' st₂ hgo₂ hsource' => ?_
  have hs₂ := hgo₂.sound (hgo₁.sound hr.sound)
  have htarget₂ := fun hstop => (htarget' (hgo₂.alive hstop)).grow hgo₂.grows
  refine walks_node (P := fun t s => target'.hasLocation = .ok true ∧ ∃ u w, target'.type? = some u ∧ s.Loads u w ∧
    s.Fits source'.info w ∧ t = TypeId.void) hs₂ (fun hstop => ?_) ?_
  · obtain ⟨u, hu⟩ := (htarget₂ hstop).typed
    obtain ⟨v, hv⟩ := (hsource' hstop).typed
    refine (keeps_assignment hs₂.store rfl (htarget₂ hstop).place (htarget₂ hstop).hasLocation hu hv).mono
      ?_ fun _ h => h
    rintro i s - - ⟨hlocation, w, hload, hfits, hproper⟩
    exact ⟨_, hproper, hlocation, u, w, hu.type, hload, hfits, rfl⟩
  · rintro i _ s hstop hg hi ⟨hlocation, u, w, hu, hload, hfits, rfl⟩
    exact .assignment ((htarget₂ hstop).grow hg) ((hsource' hstop).grow hg) hlocation hu hload hfits hi

/-! ### Struct literals -/

private theorem checks_noFields : ChecksFields L functions c fr σ [] := by
  intro st owner declared seen hr _
  rw [Check.fields]
  exact walks_pure hr.sound fun _ => ⟨by simp, by simp, by simp, by simp⟩

private theorem checks_field {name : String} {value : Expr} {rest : List (FieldInit Expr)}
    (hvalue : ChecksExpr L functions c fr σ [] value) (hrest : ChecksFields L functions c fr σ rest) :
    ChecksFields L functions c fr σ (⟨name, span, value⟩ :: rest) := by
  intro st owner declared seen hr hdeclared
  have hs := hr.sound
  rw [Check.fields]
  change Walks L fr ({} ++ (⟨value.mentions, value.uses functions σ, []⟩ ++
    ⟨Expr.mentionsFields rest, Expr.usesFields functions σ rest, []⟩)) _ st _
  refine (walks_learn hs fun _ => keeps_field hs.store).attempted ?_ ?_
  · rintro t st₁ hgo₁ - ⟨hmem, hseen⟩
    have hr₁ := hr.step hgo₁
    refine (hvalue st₁ hr₁.left).bind fun value' st₂ hgo₂ hvalue' => ?_
    have hs₂ := hgo₂.sound hr₁.sound
    have hg₂ := hgo₁.grows.trans hgo₂.grows
    refine (walks_demand (p := {}) (P := fun s => s.Fits value'.info t) hs₂ fun hstop => ?_).after
      fun _ st₃ hgo₃ hfits => ?_
    · obtain ⟨u, hu⟩ := (hvalue' hstop).typed
      exact (keeps_expectExpr hs₂.store hu (hg₂.known (hdeclared _ hmem))).moves
    · have hr₃ := (hr₁.next hgo₂).step hgo₃
      have hdeclared₃ : ∀ d ∈ declared, st₃.store.Known d.2 := fun d hd =>
        (hg₂.trans hgo₃.grows).known (hdeclared d hd)
      refine (hrest st₃ owner declared (name :: seen) hr₃ hdeclared₃).followed fun rest' st₄ hgo₄ hrest' => ?_
      refine walks_pure (hgo₄.sound hr₃.sound) fun hstop => ?_
      obtain ⟨hannotated, hfit, hnodup, hnew⟩ := hrest' hstop
      have hstop₃ := hgo₄.alive hstop
      have hvalue₄ := (hvalue' (hgo₃.alive hstop₃)).grow (hgo₃.grows.trans hgo₄.grows)
      refine ⟨?_, ?_, ?_, ?_⟩
      · simpa using ⟨hvalue₄, hannotated⟩
      · simpa using ⟨⟨t, hmem, hgo₄.grows.fits (hfits hstop₃)⟩, hfit⟩
      -- a later field of this name would be refused, since the name is among those seen
      · refine List.nodup_cons.mpr ⟨fun hin => ?_, hnodup⟩
        obtain ⟨f, hf, hname⟩ := List.mem_map.mp hin
        exact hnew f hf (hname ▸ List.mem_cons_self)
      · simpa using ⟨hseen, fun f hf hin => hnew f hf (List.mem_cons_of_mem _ hin)⟩
  · exact fun st₁ hgo₁ hne => walks_failed (hgo₁.sound hs) hne

/-- The fields of a resolved struct have different names. -/
private theorem Store.Sound.nodup_fields {s : Store} {id : TypeId} {decl : StructDecl} {fields : List (String × TypeId)}
    (hs : s.Sound L) (he : s.typeAt? id = some (.struct decl (.resolved fields))) : (fields.map (·.1)).Nodup :=
  (hs.types.resolved id decl fields he).2.2.1

private theorem checks_structLiteral {name : String} {inits : List (FieldInit Expr)}
    (hinits : ChecksFields L functions c fr σ inits) :
    ChecksExpr L functions c fr σ [] (.structLiteral { span } name inits) := by
  intro st hr
  have hs := hr.sound
  obtain ⟨hname, -⟩ := Listing.lists_cons.mp hr.listed
  rw [Check.expr]
  refine walks_open hs rfl rfl fun _ => ?_
  refine Walks.mono (p := {} ++ ⟨Expr.mentionsFields inits, Expr.usesFields functions σ inits, []⟩) ?_
    ⟨fun _ => List.mem_cons_of_mem _, fun _ h => h, rfl⟩
  refine (walks_learn hs fun _ => keeps_literalStruct hs.store hs.idle hr.frame hname).attempted ?_ ?_
  · rintro ⟨type, owner, declared⟩ st₁ hgo₁ - ⟨hsettled, decl, he⟩
    dsimp only at hsettled he ⊢
    have hr₁ : Ready L functions c fr σ (Expr.mentionsFields inits) st₁ :=
      (hr.sub (List.sublist_cons_self _ _)).step hgo₁
    have hdeclared : ∀ d ∈ declared, st₁.store.Known d.2 := fun d hd =>
      ((hr₁.sound.store.types.resolved type decl declared he).1 d hd).1
    refine (hinits st₁ owner declared [] hr₁ hdeclared).followed fun inits' st₂ hgo₂ hinits' => ?_
    have hs₂ := hgo₂.sound hr₁.sound
    refine walks_node (P := fun t _ => (∀ d ∈ declared, d.1 ∈ inits'.map (·.name)) ∧ t = type) hs₂ (fun hstop => ?_) ?_
    · refine (keeps_literal hs₂.store rfl (hgo₂.grows.settled hsettled)).mono ?_ fun _ h => h
      rintro i s - - ⟨hall, hproper⟩
      exact ⟨type, hproper, hall, rfl⟩
    · rintro i _ s hstop hg hi ⟨hall, rfl⟩
      obtain ⟨hannotated, hfits, hnodup, -⟩ := hinits' hstop
      -- all fields are given and none twice, so the names are those of the struct in some order
      have honce : (inits'.map (·.name)).Perm (declared.map (·.1)) := by
        refine (List.perm_ext_iff_of_nodup hnodup (hr₁.sound.store.nodup_fields he)).mpr fun a =>
          ⟨fun ha => ?_, fun ha => ?_⟩
        · obtain ⟨f, hf, rfl⟩ := List.mem_map.mp ha
          obtain ⟨u, hu, -⟩ := hfits f hf
          exact List.mem_map.mpr ⟨_, hu, rfl⟩
        · obtain ⟨d, hd, rfl⟩ := List.mem_map.mp ha
          exact hall d hd
      refine .structLiteral (fun f hf => (hannotated f hf).grow hg) ((hgo₂.grows.trans hg).resolved he) honce ?_ hi
      intro f hf
      obtain ⟨u, hu, hfit⟩ := hfits f hf
      exact ⟨u, hu, hg.fits hfit⟩
  · exact fun st₁ hgo₁ hne => walks_failed (hgo₁.sound hs) hne

/-! ### Statements and control flow -/

private theorem checks_none : ChecksOption L functions c fr σ none := by
  intro st hr
  rw [Check.option]
  exact walks_pure hr.sound fun _ => by simp

private theorem checks_some {e : Expr} (he : ChecksExpr L functions c fr σ [] e) :
    ChecksOption L functions c fr σ (some e) := by
  intro st hr
  rw [Check.option]
  refine (he st hr).followed fun e' st₁ hgo₁ he' => walks_pure (hgo₁.sound hr.sound) fun hstop => ?_
  rintro _ ⟨⟩
  exact he' hstop

private theorem checks_nil : ChecksAll L functions c fr σ [] [] := by
  intro st hr
  rw [Check.exprs]
  exact walks_pure hr.sound fun _ => by simp

private theorem checks_cons {e : Expr} {rest : List Expr} {vs ws : List Variable}
    (he : ChecksExpr L functions c fr σ vs e)
    (hvs : e.declared = vs) (hrest : ChecksAll L functions c fr (σ.declare vs) ws rest) :
    ChecksAll L functions c fr σ (vs ++ ws) (e :: rest) := by
  subst hvs
  intro st hr
  rw [Check.exprs]
  change Walks L fr (⟨e.mentions, _, e.declared⟩ ++
    ⟨Expr.mentionsAll rest, Expr.usesAll functions (σ.declare e.declared) rest, ws⟩) _ st _
  refine (he st hr.left).bind fun e' st₁ hgo₁ he' => ?_
  have hr₁ := hr.declare hgo₁
  refine (hrest st₁ hr₁).followed fun rest' st₂ hgo₂ hrest' => walks_pure (hgo₂.sound hr₁.sound) fun hstop => ?_
  intro x hx
  rcases List.mem_cons.mp hx with rfl | hx
  · exact (he' (hgo₂.alive hstop)).grow hgo₂.grows
  · exact hrest' hstop x hx

private theorem checks_let {nameSpan : Span} {name : String} {mutable : Bool} {declared : Option TypeExpr} {init : Expr}
    (hinit : ChecksExpr L functions c fr σ [] init) :
    ChecksExpr L functions c fr σ [{ name, kind := .bound, mutable, span := nameSpan }]
      (.letBinding { span } (.owned { name, kind := .bound, mutable, span := nameSpan }) declared init) := by
  intro st hr
  obtain ⟨hdeclared, -⟩ := Listing.lists_append.mp hr.listed
  -- the name and its mutability are all that is known of the variable before its type is
  generalize hv : ({ name, kind := .bound, mutable, span := nameSpan } : Variable) = v
  rw [Check.expr]
  refine walks_open hr.sound rfl rfl fun _ => ?_
  refine Walks.mono (p := ⟨init.mentions, init.uses functions σ, []⟩ ++ ({} ++ (⟨[], [], [v]⟩ ++ {}))) ?_
    ⟨fun m hm => List.mem_append_right _ (by simpa using hm), fun u hu => by simpa [Expr.uses] using hu, rfl⟩
  refine (hinit st hr.right).bind fun init' st₁ hgo₁ hinit' => ?_
  have hs₁ := hgo₁.sound hr.sound
  refine Walks.attempted
    (P := fun w s => ∃ holder t, w = { v with type := holder } ∧ holder.value? = some t ∧ s.Settled t ∧
    s.Fits init'.info t) (walks_learn hs₁ fun hstop => ?_) ?_ ?_
  · obtain ⟨u, hu⟩ := (hinit' hstop).typed
    exact keeps_let hs₁.store hs₁.idle (hgo₁.grows.frame_lt hr.frame) hdeclared hu
  · rintro _ st₂ hgo₂ hstop₂ ⟨holder, t, rfl, hvalue, hsettled, hfits⟩
    have hs₂ := hgo₂.sound hs₁
    have hg₂ := hgo₁.grows.trans hgo₂.grows
    have hinit₂ := (hinit' (hgo₂.alive hstop₂)).grow hgo₂.grows
    have hdeclares : st₂.store.Declares L { v with type := holder } := by
      subst hv
      exact ⟨t, hvalue, hsettled⟩
    have hbare : Variable.bare { v with type := holder } = v := by
      subst hv
      rfl
    have hmoves : Moves L fr [] [v] st₂.store (declare fr { v with type := holder }) _ _ :=
      hbare ▸ moves_declare hs₂.store (hg₂.frame_lt hr.frame) hdeclares
    have htake : Moves L fr [] [v] st₂.store (do
        declare fr { v with type := holder }
        lift (Holder.take (.owned { v with type := holder })))
        (fun p s => p.1 = { v with type := holder } ∧ s.Finds fr { v with type := holder }) L.Allows :=
      hmoves.bind fun _ s hmoves _ hfinds => (keeps_pure hmoves.sound ⟨rfl, hfinds⟩ : Keeps L s _ _ _).moves
    refine (walks_attempt hs₂ (fun _ => htake) fun _ => .inl).attempted ?_ ?_
    · rintro ⟨_, rest⟩ st₃ hgo₃ - ⟨rfl, hfinds⟩
      have hs₃ := hgo₃.sound hs₂
      refine walks_node (P := fun t _ => t = TypeId.void) hs₃ (fun _ => ?_) ?_
      · exact keeps_pure hs₃.store ⟨_, .resolve rfl (hs₃.store.settled rfl), rfl⟩
      · rintro i _ s - hg hi rfl
        have hg' := hgo₃.grows.trans hg
        exact .letBinding (hinit₂.grow hg') hvalue (hg'.settled hsettled) (hg'.fits hfits) (hg.finds hfinds) hi
    · exact fun st₃ hgo₃ hne => walks_failed (hgo₃.sound hs₂) hne
  · exact fun st₂ hgo₂ hne => walks_failed (hgo₂.sound hs₁) hne

private theorem checks_block {stmts : List Expr} {tail : Option Expr} {vs : List Variable}
    (hvs : stmts.flatMap Expr.declared = vs) (hstmts : ∀ inner, ChecksAll L functions c inner ([] :: σ) vs stmts)
    (htail : ∀ inner, ChecksOption L functions c inner (Scope.declare ([] :: σ) vs) tail) :
    ChecksBlock L functions c fr σ ⟨{ span }, none, stmts, tail⟩ := by
  subst hvs
  intro st hr
  rw [Check.block]
  refine walks_open hr.sound rfl rfl fun hstop => ?_
  -- what the statements declare goes into the frame made here and leaves the one outside as it is
  refine Walks.inside (g := st.store.frames.size)
    (p := {} ++ (⟨Expr.mentionsAll stmts, Expr.usesAll functions ([] :: σ) stmts, stmts.flatMap Expr.declared⟩ ++
      ⟨Expr.optionMentions tail,
      Expr.optionUses functions (Scope.declare ([] :: σ) (stmts.flatMap Expr.declared)) tail, []⟩))
    ?_ (Nat.le_refl _) hr.frame
  refine (walks_attempt hr.sound (fun _ => moves_nest hr.sound.store (hr.shows hstop)) fun _ => .inl).attempted ?_ ?_
  · rintro _ st₁ hgo₁ - ⟨rfl, hshows, f, hf, houter⟩
    have hr₁ :
        Ready L functions c st.store.frames.size ([] :: σ) (Expr.mentionsAll stmts ++ Expr.optionMentions tail) st₁ :=
      hr.enter hgo₁ (Nat.le_refl _) (fun r h => hgo₁.grows.settled (hr.returns r h)) hshows
    refine (hstmts _ st₁ hr₁.left).bind fun stmts' st₂ hgo₂ hstmts' => ?_
    have hr₂ := hr₁.declare hgo₂
    refine (htail _ st₂ hr₂).followed fun tail' st₃ hgo₃ htail' => ?_
    have hs₃ := hgo₃.sound hr₂.sound
    refine (walks_conclude (P := fun t _ => (∀ e ∈ tail', e.type? = some t) ∧
      (tail' = none → t = TypeId.void ∨ t = TypeId.never)) hs₃ fun hstop => ?_).followed fun i st₄ hgo₄ hi => ?_
    · refine (keeps_block hs₃.store rfl fun e he => (htail' hstop e he).typed).mono ?_ fun _ h => h
      rintro i s - - ⟨t, hresult, hvoid, hproper⟩
      exact ⟨t, hproper, hresult, hvoid⟩
    · refine walks_pure (hgo₄.sound hs₃) fun hstop => ?_
      obtain ⟨t, ht, hresult, hvoid⟩ := hi hstop
      have hstop₃ := hgo₄.alive hstop
      obtain ⟨f', hf', hgrows⟩ := ((hgo₂.grows.trans hgo₃.grows).trans hgo₄.grows).frames _ f hf
      refine .block hf' (by rw [hgrows.outer]; exact houter) (fun e he => ?_) (fun e he => ?_) hresult hvoid ht
      · exact (hstmts' (hgo₃.alive hstop₃) e he).grow (hgo₃.grows.trans hgo₄.grows)
      · exact (htail' hstop₃ e he).grow hgo₄.grows
  · exact fun st₁ hgo₁ hne => walks_failed (hgo₁.sound hr.sound) hne

private theorem checks_blockExpr {b : Block Expr} (hb : ChecksBlock L functions c fr σ b)
    (huntyped : b.info.type = none) :
    ChecksExpr L functions c fr σ [] (.block b) := by
  intro st hr
  rw [Check.expr]
  refine walks_open hr.sound rfl ?_ fun _ => ?_
  · simp [Expr.info, huntyped]
  · exact (hb st hr).followed fun b' st₁ hgo₁ hb' => walks_pure (hgo₁.sound hr.sound) hb'

/-- A condition is checked, and refused if it is no truth value. -/
private theorem walks_condition {β : Type} {cond : Expr} {f : Expr → Check β} {q : Footprint} {R : β → Store → Prop}
    (hcond : ChecksExpr L functions c fr σ [] cond) (hr : Ready L functions c fr σ (cond.mentions ++ ms) st)
    (hf : ∀ cond' st', st.store.GrowsTo st'.store → Ready L functions c fr σ ms st' →
      (st'.stop = none → cond'.Annotated st'.store c.returns fr ∧ st'.store.Fits cond'.info TypeId.bool) →
      Walks L fr q (f cond') st' R) :
    Walks L fr (⟨cond.mentions, cond.uses functions σ, []⟩ ++ q) (do
      let cond ← Check.expr c fr cond
      demand (expectExpr cond TypeId.bool)
      f cond) st R := by
  refine (hcond st hr.left).bind fun cond' st₁ hgo₁ hcond' => ?_
  have hs₁ := hgo₁.sound hr.sound
  refine (walks_demand (p := {}) (P := fun s => s.Fits cond'.info TypeId.bool) hs₁ fun hstop => ?_).after ?_
  · obtain ⟨t, ht⟩ := (hcond' hstop).typed
    exact (keeps_expectExpr hs₁.store ht (hs₁.store.settled rfl).1).moves
  · intro _ st₂ hgo₂ hfits
    refine hf cond' st₂ (hgo₁.grows.trans hgo₂.grows) ((hr.next hgo₁).step hgo₂) fun hstop => ⟨?_, hfits hstop⟩
    exact (hcond' (hgo₂.alive hstop)).grow hgo₂.grows

private theorem checks_ifElse {cond : Expr} {thenBlock : Block Expr} {other : Option Expr}
    (hcond : ChecksExpr L functions c fr σ [] cond) (hthen : ChecksBlock L functions c fr σ thenBlock)
    (hother : ChecksOption L functions c fr σ other) :
    ChecksExpr L functions c fr σ [] (.ifElse { span } cond thenBlock other) := by
  intro st hr
  have hr : Ready L functions c fr σ
      (cond.mentions ++ (Expr.mentionsBlock thenBlock ++ Expr.optionMentions other)) st := by
    simpa [Expr.mentions] using hr
  rw [Check.expr]
  refine walks_open hr.sound rfl rfl fun _ => ?_
  refine Walks.mono (p := ⟨cond.mentions, cond.uses functions σ, []⟩ ++
    (⟨Expr.mentionsBlock thenBlock, Expr.usesBlock functions σ thenBlock, []⟩ ++
      ⟨Expr.optionMentions other, Expr.optionUses functions σ other, []⟩)) ?_
    ⟨fun m hm => by simpa [Expr.mentions] using hm, fun u hu => by simpa [Expr.uses] using hu, rfl⟩
  refine walks_condition hcond hr fun cond' st₁ _ hr₁ hcond' => ?_
  refine (hthen st₁ hr₁.left).bind fun then' st₂ hgo₂ hthen' => ?_
  have hr₂ := hr₁.next hgo₂
  refine (hother st₂ hr₂).followed fun other' st₃ hgo₃ hother' => ?_
  have hs₃ := hgo₃.sound hr₂.sound
  have hthen₃ := fun hstop => (hthen' (hgo₃.alive hstop)).grow hgo₃.grows
  refine walks_node (P := fun t s => s.Fits then'.info t ∧ (∀ e ∈ other', s.Fits e.info t) ∧
    (other' = none → t = TypeId.void)) hs₃ (fun hstop => ?_) ?_
  · obtain ⟨t, ht⟩ := (hthen₃ hstop).typed
    refine (keeps_if hs₃.store rfl ht fun e he => (hother' hstop e he).typed).mono ?_ fun _ h => h
    rintro i s - - ⟨w, hfirst, hsecond, hvoid, hproper⟩
    exact ⟨w, hproper, hfirst, hsecond, hvoid⟩
  · rintro i t s hstop hg hi ⟨hfirst, hsecond, hvoid⟩
    obtain ⟨hcond₁, hbool⟩ := hcond' (hgo₂.alive (hgo₃.alive hstop))
    have hg₁ := (hgo₂.grows.trans hgo₃.grows).trans hg
    exact .ifElse (hcond₁.grow hg₁) (hg₁.fits hbool) ((hthen₃ hstop).grow hg) (fun e he => (hother' hstop e he).grow hg)
      hfirst hsecond hvoid hi

/-- The body of a loop is checked inside of the loop, and has no value. -/
private theorem walks_loop {β : Type} {body : Block Expr} {f : Block Expr → Bool → Check β} {R : β → Store → Prop}
    (hbody : ChecksBlock L functions c fr σ body) (hr : Ready L functions c fr σ (Expr.mentionsBlock body) st)
    (hf : ∀ body' left st', st.store.GrowsTo st'.store → st'.Sound L → (st'.stop = none → st.stop = none) →
      (st'.stop = none → (Expr.block body').Annotated st'.store c.returns fr) → Walks L fr {} (f body' left) st' R) :
    Walks L fr ⟨Expr.mentionsBlock body, Expr.usesBlock functions σ body, []⟩ (do
      enterLoop
      let body ← Check.block c fr body
      let left ← exitLoop
      f body left) st R := by
  refine (walks_same hr.sound rfl rfl).after fun _ st₁ hgo₁ _ => ?_
  have hr₁ := hr.step hgo₁
  refine (hbody st₁ hr₁).followed fun body' st₂ hgo₂ hbody' => ?_
  have hs₂ := hgo₂.sound hr₁.sound
  refine (walks_same hs₂ rfl rfl).after fun left st₃ hgo₃ _ => ?_
  refine hf body' left st₃ ((hgo₁.grows.trans hgo₂.grows).trans hgo₃.grows) (hgo₃.sound hs₂) ?_ ?_
  · exact fun hstop => hgo₁.alive (hgo₂.alive (hgo₃.alive hstop))
  · exact fun hstop => (hbody' (hgo₃.alive hstop)).grow hgo₃.grows

theorem keeps_loop {s : Store} {info : Info} {body : Block Expr} {t u : TypeId} (hs : s.Sound L)
    (hinfo : info.value = none)
    (hbody : body.info.Typed s u) (ht : t = TypeId.void ∨ t = TypeId.never) :
    Keeps L s (do expectBlock body TypeId.void; return info.resolve t false false)
      (fun i s' => ∃ t', i.Proper s' t' ∧ s'.Fits body.info TypeId.void ∧ t' = t) L.Allows := by
  refine (keeps_expectBlock hs hbody (hs.settled rfl).1).bind fun _ s' hs' _ hfits => ?_
  have hsettled : s'.Settled t := by
    rcases ht with rfl | rfl
    · exact hs'.settled rfl
    · exact hs'.settled rfl
  exact keeps_pure hs' ⟨t, .resolve hinfo hsettled, hfits, rfl⟩

private theorem checks_whileLoop {cond : Expr} {body : Block Expr} (hcond : ChecksExpr L functions c fr σ [] cond)
    (hbody : ChecksBlock L functions c fr σ body) :
    ChecksExpr L functions c fr σ [] (.whileLoop { span } cond body) := by
  intro st hr
  rw [Check.expr]
  refine walks_open hr.sound rfl rfl fun _ => ?_
  change Walks L fr (⟨cond.mentions, _, []⟩ ++ ⟨Expr.mentionsBlock body, Expr.usesBlock functions σ body, []⟩) _ st _
  refine walks_condition hcond hr fun cond' st₁ _ hr₁ hcond' => ?_
  refine walks_loop hbody hr₁ fun body' _ st₂ hg₂ hs₂ halive hbody' => ?_
  refine walks_node (P := fun t s => s.Fits body'.info TypeId.void ∧ t = TypeId.void) hs₂ (fun hstop => ?_) ?_
  · obtain ⟨u, hu⟩ := (hbody' hstop).typed
    exact keeps_loop hs₂.store rfl hu (.inl rfl)
  · rintro i _ s hstop hg hi ⟨hvoid, rfl⟩
    obtain ⟨hcond₁, hbool⟩ := hcond' (halive hstop)
    have hg₁ := hg₂.trans hg
    exact .whileLoop (hcond₁.grow hg₁) (hg₁.fits hbool) ((hbody' hstop).grow hg) hvoid hi

private theorem checks_endlessLoop {body : Block Expr} (hbody : ChecksBlock L functions c fr σ body) :
    ChecksExpr L functions c fr σ [] (.endlessLoop { span } body) := by
  intro st hr
  rw [Check.expr]
  refine walks_open hr.sound rfl rfl fun _ => walks_loop hbody hr fun body' left st₂ _ hs₂ _ hbody' => ?_
  have ht : (if left then TypeId.void else TypeId.never) = TypeId.void ∨
      (if left then TypeId.void else TypeId.never) = TypeId.never := by cases left <;> simp
  refine walks_node (P := fun t s => s.Fits body'.info TypeId.void ∧ t = if left then TypeId.void else TypeId.never) hs₂
    (fun hstop => ?_) ?_
  · obtain ⟨u, hu⟩ := (hbody' hstop).typed
    exact keeps_loop hs₂.store rfl hu ht
  · rintro i _ s hstop hg hi ⟨hvoid, rfl⟩
    exact .endlessLoop ((hbody' hstop).grow hg) hvoid ht hi

private theorem checks_jump {make : Info → Expr} {keyword : String} {note : Check Unit} (hs : st.Sound L)
    (hexpr : Check.expr c fr (make { span }) = jump make keyword note { span })
    (hnote : ∀ st : CheckState, (note.run st).2.store = st.store ∧ (note.run st).2.stop = st.stop)
    (hmake : ∀ i s, i.Typed s TypeId.never → (make i).Annotated s c.returns fr) :
    Walks L fr {} (Check.expr c fr (make { span })) st fun e s => e.Annotated s c.returns fr := by
  rw [hexpr, jump]
  refine walks_open hs rfl rfl fun _ => ?_
  refine (walks_same hs rfl rfl).after fun _ st₁ hgo₁ _ => ?_
  have hs₁ := hgo₁.sound hs
  refine (walks_same hs₁ (hnote st₁).1 (hnote st₁).2).after fun _ st₂ hgo₂ _ => ?_
  have hs₂ := hgo₂.sound hs₁
  refine walks_node (P := fun t _ => t = TypeId.never) hs₂ (fun _ => ?_) ?_
  · exact (keeps_jump hs₂.store rfl).mono (fun i s _ _ h => ⟨_, h, rfl⟩) fun _ h => h
  · rintro i _ s - - hi rfl
    exact hmake i s hi

private theorem checks_leaveFunction {result : Option Expr} (hresult : ChecksOption L functions c fr σ result) :
    ChecksExpr L functions c fr σ [] (.leaveFunction { span } result) := by
  intro st hr
  rw [Check.expr]
  refine walks_open hr.sound rfl rfl fun _ => ?_
  obtain ⟨options, returns⟩ := c
  -- what is returned is checked inside of functions only
  have hwalk : Walks L fr ⟨Expr.optionMentions result, Expr.optionUses functions σ result, []⟩
      (if returns.isSome then Check.option ⟨options, returns⟩ fr result else pure result) st
      fun e' s => returns.isSome = true → ∀ x ∈ e', x.Annotated s returns fr := by
    cases returns with
    | none => exact Walks.mono (p := {}) (walks_pure hr.sound fun _ h => by cases h) ⟨by simp, by simp, rfl⟩
    | some r => exact (hresult st hr).imp fun _ _ _ _ h _ => h
  refine Walks.congr
      (c := (if returns.isSome then Check.option ⟨options, returns⟩ fr result else pure result) >>= fun result =>
    do return Expr.leaveFunction (← conclude { span } (returnRule { span } returns result)) result) ?_ ?_
  case refine_2 => cases returns <;> rfl
  refine hwalk.followed fun result' st₁ hgo₁ hresult' => ?_
  have hs₁ := hgo₁.sound hr.sound
  refine walks_node (P := fun t s => ∃ r, returns = some r ∧ (∀ e ∈ result', s.Fits e.info r) ∧
    (result' = none → r = TypeId.void) ∧ t = TypeId.never) hs₁ (fun hstop => ?_) ?_
  · refine (keeps_return hs₁.store rfl (fun r h => (hgo₁.grows.settled (hr.returns r h)).1) ?_).mono ?_ fun _ h => h
    · exact fun hsome e he => (hresult' hstop hsome e he).typed
    · rintro i s - - ⟨r, hr, hfits, hvoid, hproper⟩
      exact ⟨_, hproper, r, hr, hfits, hvoid, rfl⟩
  · rintro i _ s hstop hg hi ⟨r, rfl, hfits, hvoid, rfl⟩
    exact .leaveFunction (fun e he => (hresult' hstop rfl e he).grow hg) hfits hvoid hi

private theorem checks_function {header : Header} {body : Block Expr} (hexported : header.exported = false)
    (hparams : ∀ p ∈ header.params, p.Fresh) (hbody : ∀ c fr σ, ChecksBlock L functions c fr σ body) :
    ChecksExpr L functions c fr σ [header.binding] (.function { span } header body) := by
  intro st hr
  have hs := hr.sound
  have hlisted : L.Lists header.mentions := (Listing.lists_append.mp hr.listed).1
  have hr' : Ready L functions c fr σ ([.function header] ++ Expr.mentionsBlock body) st := by
    refine hr.sub ?_
    rw [Expr.mentions, Header.mentions]
    simp
  -- no other function stands at this place, so it is registered here for the first time
  have hnew : st.store.function header.span = {} := hr'.unseen header (by simp)
  rw [Check.expr]
  refine walks_open hs rfl rfl fun _ => ?_
  refine Walks.mono (p := ⟨[.function header], [], [header.binding]⟩ ++
    ⟨Expr.mentionsBlock body, Expr.usesBlock functions (Scope.nested functions header) body, []⟩) ?_ ?_
  · refine (walks_attempt hs (fun _ => moves_enterNested hs.store hr.frame hr.inner hexported hlisted hnew hr.module)
      fun _ => .inl).attempted ?_ ?_
    · rintro own st₁ hgo₁ - ⟨-, hshows, hregistered⟩
      have hr₁ := hr'.declare hgo₁
      refine (walks_function hr₁.toPrepared hr₁.frame hshows hlisted hregistered hparams
        fun c' fr' => hbody c' fr' _).followed ?_
      rintro ⟨i, header', body'⟩ st₂ hgo₂ hfunction
      refine walks_pure (hgo₂.sound hr₁.sound) fun hstop => ?_
      obtain ⟨sig, params, returns, inner, he, hparams', hbody', hfits, hi⟩ := hfunction hstop
      exact .function he hparams' hbody' hfits hi
    · exact fun st₁ hgo₁ hne => walks_failed (hgo₁.sound hs) hne
  · refine ⟨fun m hm => ?_, fun u hu => by simpa [Expr.uses] using hu, rfl⟩
    simp only [Footprint.mentions_append, List.cons_append, List.nil_append, List.mem_cons] at hm
    rcases hm with rfl | hm
    · exact List.mem_append_left _ (by simp [Header.mentions])
    · exact List.mem_append_right _ hm

/-! ### Fresh trees -/

mutual

/-- A fresh expression is walked through without a fault, and is annotated if the walk goes on behind it. -/
theorem checks_expr (e : Expr) {b : Bool} (hf : e.Fresh b) (c : Context) (fr : FrameId) (σ : Scope) :
    ChecksExpr L functions c fr σ e.declared e := by
  -- what is used as a value is no declaration, so it declares nothing
  have hvalue : ∀ e' : Expr, e'.Fresh false → ChecksExpr L functions c fr σ e'.declared e' →
      ChecksExpr L functions c fr σ [] e' := fun e' hf' h => hf'.declared_eq ▸ h
  have hvalues : ∀ es :
      List Expr, (∀ e' ∈ es, e'.Fresh false) → ChecksAll L functions c fr σ (es.flatMap Expr.declared) es →
      ChecksAll L functions c fr σ [] es := by
    intro es hf' h
    rwa [List.flatMap_eq_nil_iff.mpr fun e' he' => (hf' e' he').declared_eq] at h
  cases e with
  | integer info n =>
    cases hf
    intro st hr
    rw [Check.expr]
    exact walks_open hr.sound rfl rfl fun _ => walks_constant (v := .i32 n) hr.sound fun _ _ => .integer
  | float info x =>
    cases hf
    intro st hr
    rw [Check.expr]
    exact walks_open hr.sound rfl rfl fun _ => walks_constant (v := .f64 x) hr.sound fun _ _ => .float
  | boolean info x =>
    cases hf
    intro st hr
    rw [Check.expr]
    exact walks_open hr.sound rfl rfl fun _ => walks_constant (v := .bool x) hr.sound fun _ _ => .boolean
  | identifier info name binding =>
    cases hf
    exact checks_identifier
  | member info base name nameSpan index =>
    have ih := fun h => checks_expr base (b := false) h c fr σ
    cases hf with
    | member hbase => exact checks_member (hvalue base hbase (ih hbase))
  | call info callee args =>
    have ih := fun h => checks_expr callee (b := false) h c fr σ
    have ihargs := fun h => checks_statements args (b := false) h c fr σ
    cases hf with
    | call hcallee hargs => exact checks_call (hvalue callee hcallee (ih hcallee)) (hvalues args hargs (ihargs hargs))
  | builtinCall info name args =>
    have ihargs := fun h => checks_statements args (b := false) h c fr σ
    cases hf with
    | builtinCall hargs => exact checks_builtinCall (hvalues args hargs (ihargs hargs))
  | unary info op operand =>
    have ih := fun h => checks_expr operand (b := false) h c fr σ
    cases hf with
    | unary hoperand => exact checks_unary (hvalue operand hoperand (ih hoperand))
  | binary info op lhs rhs =>
    have ihlhs := fun h => checks_expr lhs (b := false) h c fr σ
    have ihrhs := fun h => checks_expr rhs (b := false) h c fr σ
    cases hf with
    | binary hlhs hrhs => exact checks_binary (hvalue lhs hlhs (ihlhs hlhs)) (hvalue rhs hrhs (ihrhs hrhs))
  | assignment info target source =>
    have ihtarget := fun h => checks_expr target (b := false) h c fr σ
    have ihsource := fun h => checks_expr source (b := false) h c fr σ
    cases hf with
    | assignment htarget hsource =>
      exact checks_assignment (hvalue target htarget (ihtarget htarget)) (hvalue source hsource (ihsource hsource))
  | structLiteral info name inits =>
    have ih := fun h => checks_fields inits h c fr σ
    cases hf with
    | structLiteral hinits => exact checks_structLiteral (ih hinits)
  | letBinding info binding declared init =>
    have ih := fun h => checks_expr init (b := false) h c fr σ
    cases hf with
    | letBinding hinit => exact checks_let (hvalue init hinit (ih hinit))
  | block b' =>
    have ih := fun h => checks_blockOf b' h c fr σ
    cases hf with
    | block hstmts htail => exact checks_blockExpr (ih (.block hstmts htail)) rfl
  | ifElse info cond thenBlock other =>
    have ihcond := fun h => checks_expr cond (b := false) h c fr σ
    have ihthen := fun h => checks_blockOf thenBlock h c fr σ
    have ihother := fun h => checks_option other h c fr σ
    cases hf with
    | ifElse hcond hthen hother =>
      exact checks_ifElse (hvalue cond hcond (ihcond hcond)) (ihthen hthen) (ihother hother)
  | whileLoop info cond body =>
    have ihcond := fun h => checks_expr cond (b := false) h c fr σ
    have ihbody := fun h => checks_blockOf body h c fr σ
    cases hf with
    | whileLoop hcond hbody => exact checks_whileLoop (hvalue cond hcond (ihcond hcond)) (ihbody hbody)
  | endlessLoop info body =>
    have ih := fun h => checks_blockOf body h c fr σ
    cases hf with
    | endlessLoop hbody => exact checks_endlessLoop (ih hbody)
  | leaveLoop info =>
    cases hf
    exact fun st hr => checks_jump hr.sound expr_leaveLoop (fun _ => ⟨rfl, rfl⟩) fun _ _ => .leaveLoop
  | nextRound info =>
    cases hf
    exact fun st hr => checks_jump hr.sound expr_nextRound (fun _ => ⟨rfl, rfl⟩) fun _ _ => .nextRound
  | leaveFunction info result =>
    have ih := fun h => checks_option result h c fr σ
    cases hf with
    | leaveFunction hresult => exact checks_leaveFunction (ih hresult)
  | function info header body =>
    have ih := fun h => checks_blockOf body h
    cases hf with
    | function hexported hparams hbody => exact checks_function hexported hparams (ih hbody)

theorem checks_option (e : Option Expr) (hf : ∀ x ∈ e, x.Fresh false) (c : Context) (fr : FrameId) (σ : Scope) :
    ChecksOption L functions c fr σ e := by
  match e with
  | none => exact checks_none
  | some e =>
    have he := hf e rfl
    exact checks_some (he.declared_eq ▸ checks_expr e he c fr σ)

theorem checks_statements (es : List Expr) {b : Bool} (hf : ∀ e ∈ es, e.Fresh b) (c : Context)
    (fr : FrameId) (σ : Scope) :
    ChecksAll L functions c fr σ (es.flatMap Expr.declared) es := by
  match es with
  | [] => exact checks_nil
  | e :: rest =>
    exact checks_cons (checks_expr e (hf e (by simp)) c fr σ) rfl
      (checks_statements rest (fun x hx => hf x (by simp [hx])) c fr _)

theorem checks_fields (inits : List (FieldInit Expr)) (hf : ∀ f ∈ inits, f.value.Fresh false) (c : Context)
    (fr : FrameId) (σ : Scope) : ChecksFields L functions c fr σ inits := by
  match inits with
  | [] => exact checks_noFields
  | ⟨name, span, value⟩ :: rest =>
    have hvalue : value.Fresh false := hf _ List.mem_cons_self
    exact checks_field (hvalue.declared_eq ▸ checks_expr value hvalue c fr σ)
      (checks_fields rest (fun f hf' => hf f (by simp [hf'])) c fr σ)

theorem checks_blockOf (b : Block Expr) (hf : (Expr.block b).Fresh false) (c : Context) (fr : FrameId) (σ : Scope) :
    ChecksBlock L functions c fr σ b := by
  match b with
  | ⟨info, frame, stmts, tail⟩ =>
    have ihstmts := fun h inner σ => checks_statements stmts (b := true) h c inner σ
    have ihtail := fun h inner σ => checks_option tail h c inner σ
    cases hf with
    | block hstmts htail =>
        exact checks_block rfl (fun inner => ihstmts hstmts inner _) fun inner => ihtail htail inner _

end

end RainCheck
