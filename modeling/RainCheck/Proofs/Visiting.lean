import RainCheck.Proofs.Checking

/-!
# Visits

Which parts of a tree a walk comes to, and in which state.
* `Visit.Step` leads from a visit to those that it makes, one for each recursive call of the walk.
* If a visit is `Sound`, so are the visits that it leads to: the frame shows the scope of the part.

So an identifier that is visited is bound to what its scope says.
-/

namespace RainCheck

open Check RainCheck.Action
open Relation (ReflTransGen)

/-- A part of a tree that is walked through by one call. -/
inductive Part where
  | expr (e : Expr)
  | option (e : Option Expr)
  | exprs (es : List Expr)
  | fields (owner : String) (declared : List (String × TypeId)) (seen : List String) (inits : List (FieldInit Expr))
  | block (b : Block Expr)

/-- A part of a tree that a walk has come to. -/
structure Visit where
  context : Context
  frame : FrameId
  part : Part
  state : CheckState

/-- The state of the walk behind a visit. -/
def Visit.after (v : Visit) : CheckState :=
  match v.part with
  | .expr e => ((Check.expr v.context v.frame e).run v.state).2
  | .option e => ((Check.option v.context v.frame e).run v.state).2
  | .exprs es => ((Check.exprs v.context v.frame es).run v.state).2
  | .fields owner declared seen inits => ((Check.fields v.context v.frame owner declared seen inits).run v.state).2
  | .block b => ((Check.block v.context v.frame b).run v.state).2

/-- The visit of the body of a function that is declared in a frame. -/
inductive Visit.Begins (options : Options) (own : FrameId) (header : Header) (body : Block Expr) (st : CheckState) :
    Visit → Prop where
  | body {entry : Action.Entry} {params : List Param} {st₁ st₂ : CheckState}
      (henter : (attempt (enterFunction own header)).run st = (some entry, st₁))
      (hbind : (bindParams entry.frame header.params entry.params).run st₁ = (params, st₂)) :
      Begins options own header body st
        ⟨⟨options, some entry.returns⟩, entry.frame, .block body, { st₂ with loops := [] }⟩

/-- A visit makes another one.  What is in front of the other part is walked through before. -/
inductive Visit.Step : Visit → Visit → Prop where
  | memberBase {c : Context} {fr : FrameId} {st : CheckState} {info : Info} {base : Expr} {name : String}
      {nameSpan : Span} {index : Nat} (hopen : st.stop = none) (huntyped : info.type = none) :
      Step ⟨c, fr, .expr (.member info base name nameSpan index), st⟩ ⟨c, fr, .expr base, st⟩
  | callee {c : Context} {fr : FrameId} {st : CheckState} {info : Info} {callee : Expr} {args : List Expr}
      (hopen : st.stop = none) (huntyped : info.type = none) :
      Step ⟨c, fr, .expr (.call info callee args), st⟩ ⟨c, fr, .expr callee, st⟩
  | arguments {c : Context} {fr : FrameId} {st st₁ : CheckState} {info : Info} {callee callee' : Expr}
      {args : List Expr} (hopen : st.stop = none) (huntyped : info.type = none)
      (hcallee : (Check.expr c fr callee).run st = (callee', st₁)) :
      Step ⟨c, fr, .expr (.call info callee args), st⟩ ⟨c, fr, .exprs args, st₁⟩
  | builtinArguments {c : Context} {fr : FrameId} {st st₁ : CheckState} {info : Info} {name : String} {b : Builtin}
      {args : List Expr} (hopen : st.stop = none) (huntyped : info.type = none)
      (hfind : (attempt (findBuiltin info name)).run st = (some b, st₁)) :
      Step ⟨c, fr, .expr (.builtinCall info name args), st⟩ ⟨c, fr, .exprs args, st₁⟩
  | operand {c : Context} {fr : FrameId} {st : CheckState} {info : Info} {op : UnaryOp} {operand : Expr}
      (hopen : st.stop = none) (huntyped : info.type = none) :
      Step ⟨c, fr, .expr (.unary info op operand), st⟩ ⟨c, fr, .expr operand, st⟩
  | left {c : Context} {fr : FrameId} {st : CheckState} {info : Info} {op : BinaryOp} {lhs rhs : Expr}
      (hopen : st.stop = none) (huntyped : info.type = none) :
      Step ⟨c, fr, .expr (.binary info op lhs rhs), st⟩ ⟨c, fr, .expr lhs, st⟩
  | right {c : Context} {fr : FrameId} {st st₁ : CheckState} {info : Info} {op : BinaryOp} {lhs lhs' rhs : Expr}
      (hopen : st.stop = none) (huntyped : info.type = none) (hleft : (Check.expr c fr lhs).run st = (lhs', st₁)) :
      Step ⟨c, fr, .expr (.binary info op lhs rhs), st⟩ ⟨c, fr, .expr rhs, st₁⟩
  | target {c : Context} {fr : FrameId} {st : CheckState} {info : Info} {target source : Expr}
      (hopen : st.stop = none) (huntyped : info.type = none) :
      Step ⟨c, fr, .expr (.assignment info target source), st⟩ ⟨c, fr, .expr target, st⟩
  | source {c : Context} {fr : FrameId} {st st₁ : CheckState} {info : Info} {target target' source : Expr}
      (hopen : st.stop = none) (huntyped : info.type = none)
      (htarget : (Check.expr c fr target).run st = (target', st₁)) :
      Step ⟨c, fr, .expr (.assignment info target source), st⟩ ⟨c, fr, .expr source, st₁⟩
  | literalFields {c : Context} {fr : FrameId} {st st₁ : CheckState} {info : Info} {name owner : String}
      {type : TypeId} {declared : List (String × TypeId)} {inits : List (FieldInit Expr)} (hopen : st.stop = none)
      (huntyped : info.type = none)
      (hstruct : (attempt (literalStruct fr info name)).run st = (some (type, owner, declared), st₁)) :
      Step ⟨c, fr, .expr (.structLiteral info name inits), st⟩ ⟨c, fr, .fields owner declared [] inits, st₁⟩
  | initial {c : Context} {fr : FrameId} {st : CheckState} {info : Info} {binding : Holder Variable}
      {declared : Option TypeExpr} {init : Expr} (hopen : st.stop = none) (huntyped : info.type = none) :
      Step ⟨c, fr, .expr (.letBinding info binding declared init), st⟩ ⟨c, fr, .expr init, st⟩
  | block {c : Context} {fr : FrameId} {st : CheckState} {b : Block Expr} (hopen : st.stop = none)
      (huntyped : b.info.type = none) :
      Step ⟨c, fr, .expr (.block b), st⟩ ⟨c, fr, .block b, st⟩
  | ifCondition {c : Context} {fr : FrameId} {st : CheckState} {info : Info} {cond : Expr} {thenBlock : Block Expr}
      {other : Option Expr} (hopen : st.stop = none) (huntyped : info.type = none) :
      Step ⟨c, fr, .expr (.ifElse info cond thenBlock other), st⟩ ⟨c, fr, .expr cond, st⟩
  | thenBlock {c : Context} {fr : FrameId} {st st₁ st₂ : CheckState} {info : Info} {cond cond' : Expr}
      {thenBlock : Block Expr} {other : Option Expr} (hopen : st.stop = none) (huntyped : info.type = none)
      (hcond : (Check.expr c fr cond).run st = (cond', st₁))
      (hbool : (demand (expectExpr cond' TypeId.bool)).run st₁ = ((), st₂)) :
      Step ⟨c, fr, .expr (.ifElse info cond thenBlock other), st⟩ ⟨c, fr, .block thenBlock, st₂⟩
  | elseBranch {c : Context} {fr : FrameId} {st st₁ st₂ st₃ : CheckState} {info : Info} {cond cond' : Expr}
      {thenBlock then' : Block Expr} {other : Option Expr} (hopen : st.stop = none) (huntyped : info.type = none)
      (hcond : (Check.expr c fr cond).run st = (cond', st₁))
      (hbool : (demand (expectExpr cond' TypeId.bool)).run st₁ = ((), st₂))
      (hthen : (Check.block c fr thenBlock).run st₂ = (then', st₃)) :
      Step ⟨c, fr, .expr (.ifElse info cond thenBlock other), st⟩ ⟨c, fr, .option other, st₃⟩
  | whileCondition {c : Context} {fr : FrameId} {st : CheckState} {info : Info} {cond : Expr} {body : Block Expr}
      (hopen : st.stop = none) (huntyped : info.type = none) :
      Step ⟨c, fr, .expr (.whileLoop info cond body), st⟩ ⟨c, fr, .expr cond, st⟩
  | whileBody {c : Context} {fr : FrameId} {st st₁ st₂ : CheckState} {info : Info} {cond cond' : Expr}
      {body : Block Expr} (hopen : st.stop = none) (huntyped : info.type = none)
      (hcond : (Check.expr c fr cond).run st = (cond', st₁))
      (hbool : (demand (expectExpr cond' TypeId.bool)).run st₁ = ((), st₂)) :
      Step ⟨c, fr, .expr (.whileLoop info cond body), st⟩ ⟨c, fr, .block body, (enterLoop.run st₂).2⟩
  | endlessBody {c : Context} {fr : FrameId} {st : CheckState} {info : Info} {body : Block Expr}
      (hopen : st.stop = none) (huntyped : info.type = none) :
      Step ⟨c, fr, .expr (.endlessLoop info body), st⟩ ⟨c, fr, .block body, (enterLoop.run st).2⟩
  | result {c : Context} {fr : FrameId} {st : CheckState} {info : Info} {result : Option Expr}
      (hopen : st.stop = none) (huntyped : info.type = none) (hreturns : c.returns.isSome = true) :
      Step ⟨c, fr, .expr (.leaveFunction info result), st⟩ ⟨c, fr, .option result, st⟩
  | nested {c : Context} {fr : FrameId} {st st₁ : CheckState} {info : Info} {header : Header} {body : Block Expr}
      {own : FrameId} {v : Visit} (hopen : st.stop = none) (huntyped : info.type = none)
      (hnested : (attempt (enterNested fr header)).run st = (some own, st₁))
      (hbegins : Visit.Begins c.options own header body st₁ v) :
      Step ⟨c, fr, .expr (.function info header body), st⟩ v
  | present {c : Context} {fr : FrameId} {st : CheckState} {e : Expr} :
      Step ⟨c, fr, .option (some e), st⟩ ⟨c, fr, .expr e, st⟩
  | head {c : Context} {fr : FrameId} {st : CheckState} {e : Expr} {rest : List Expr} :
      Step ⟨c, fr, .exprs (e :: rest), st⟩ ⟨c, fr, .expr e, st⟩
  | tail {c : Context} {fr : FrameId} {st st₁ : CheckState} {e e' : Expr} {rest : List Expr}
      (hhead : (Check.expr c fr e).run st = (e', st₁)) :
      Step ⟨c, fr, .exprs (e :: rest), st⟩ ⟨c, fr, .exprs rest, st₁⟩
  | fieldValue {c : Context} {fr : FrameId} {st st₁ : CheckState} {owner name : String}
      {declared : List (String × TypeId)} {seen : List String} {span : Span} {value : Expr}
      {rest : List (FieldInit Expr)} {type : TypeId}
      (hfield : (attempt (fieldRule owner declared seen name span)).run st = (some type, st₁)) :
      Step ⟨c, fr, .fields owner declared seen (⟨name, span, value⟩ :: rest), st⟩ ⟨c, fr, .expr value, st₁⟩
  | laterFields {c : Context} {fr : FrameId} {st st₁ st₂ st₃ : CheckState} {owner name : String}
      {declared : List (String × TypeId)} {seen : List String} {span : Span} {value value' : Expr}
      {rest : List (FieldInit Expr)} {type : TypeId}
      (hfield : (attempt (fieldRule owner declared seen name span)).run st = (some type, st₁))
      (hvalue : (Check.expr c fr value).run st₁ = (value', st₂))
      (hfits : (demand (expectExpr value' type)).run st₂ = ((), st₃)) :
      Step ⟨c, fr, .fields owner declared seen (⟨name, span, value⟩ :: rest), st⟩
        ⟨c, fr, .fields owner declared (name :: seen) rest, st₃⟩
  | statements {c : Context} {fr : FrameId} {st st₁ : CheckState} {info : Info} {entered : Option FrameId}
      {stmts : List Expr} {tail : Option Expr} {inner : FrameId} (hopen : st.stop = none)
      (huntyped : info.type = none) (hnest : (attempt (nest fr)).run st = (some inner, st₁)) :
      Step ⟨c, fr, .block ⟨info, entered, stmts, tail⟩, st⟩ ⟨c, inner, .exprs stmts, st₁⟩
  | blockTail {c : Context} {fr : FrameId} {st st₁ st₂ : CheckState} {info : Info} {entered : Option FrameId}
      {stmts stmts' : List Expr} {tail : Option Expr} {inner : FrameId} (hopen : st.stop = none)
      (huntyped : info.type = none) (hnest : (attempt (nest fr)).run st = (some inner, st₁))
      (hstmts : (Check.exprs c inner stmts).run st₁ = (stmts', st₂)) :
      Step ⟨c, fr, .block ⟨info, entered, stmts, tail⟩, st⟩ ⟨c, inner, .option tail, st₂⟩

/-! ### Ends of walks -/

namespace Check

variable {α β : Type} {st st' st'' : CheckState} {c : Check α} {f : α → Check β}

/-- Once the walk has ended, a part of it changes nothing about the end and the store. -/
def Steady (c : Check α) : Prop :=
  ∀ st why, st.stop = some why → (c.run st).2.stop = some why ∧ (c.run st).2.store = st.store

theorem steady_pure {x : α} : Steady (pure x) := fun _ _ h => ⟨h, rfl⟩

theorem Steady.bind (h : Steady c) (hf : ∀ x, Steady (f x)) : Steady (c >>= f) := by
  intro st why hstop
  obtain ⟨hstop₁, hstore₁⟩ := h st why hstop
  obtain ⟨hstop₂, hstore₂⟩ := hf _ _ why hstop₁
  exact ⟨hstop₂, hstore₂.trans hstore₁⟩

/-- Behind an action that is not tried because the walk has ended. -/
theorem steady_attempt {a : Action α} {f : Option α → Check β} (hf : Steady (f none)) : Steady (attempt a >>= f) := by
  intro st why hstop
  change ((f ((attempt a).run st).1).run ((attempt a).run st).2).2.stop = _ ∧
    ((f ((attempt a).run st).1).run ((attempt a).run st).2).2.store = _
  rw [run_attempt_ended hstop]
  exact hf st why hstop

private theorem steady_conclude {info : Info} {rule : Action Info} {f : Info → Check β} (hf : ∀ i, Steady (f i)) :
    Steady (conclude info rule >>= f) :=
  Steady.bind (steady_attempt steady_pure) hf

theorem steady_demand {a : Action Unit} {f : Unit → Check β} (hf : ∀ u, Steady (f u)) : Steady (demand a >>= f) :=
  Steady.bind (steady_attempt steady_pure) hf

theorem steady_same (h : ∀ st, (c.run st).2.stop = st.stop ∧ (c.run st).2.store = st.store) : Steady c :=
  fun st _ hstop => ⟨(h st).1.trans hstop, (h st).2⟩

/-- A part that is skipped when the walk has ended. -/
private theorem steady_open {x : α} {skip : Bool → Bool} (hskip : skip true = true) :
    Steady (do if skip (← stopped) then return x else c) := by
  intro st why hstop
  rw [run_ended hstop hskip]
  exact ⟨hstop, rfl⟩

variable {ctx : Context} {fr : FrameId}

theorem steady_expr (e : Expr) : Steady (Check.expr ctx fr e) := by
  rw [Check.expr.eq_def]
  exact steady_open rfl

theorem steady_option (e : Option Expr) : Steady (Check.option ctx fr e) := by
  cases e with
  | none =>
    rw [Check.option]
    exact steady_pure
  | some e =>
    rw [Check.option]
    exact (steady_expr e).bind fun _ => steady_pure

theorem steady_exprs (es : List Expr) : Steady (Check.exprs ctx fr es) := by
  induction es with
  | nil =>
    rw [Check.exprs]
    exact steady_pure
  | cons e rest ih =>
    rw [Check.exprs]
    exact (steady_expr e).bind fun _ => ih.bind fun _ => steady_pure

theorem steady_fields {owner : String} {declared : List (String × TypeId)} {seen : List String}
    (inits : List (FieldInit Expr)) : Steady (Check.fields ctx fr owner declared seen inits) := by
  cases inits with
  | nil =>
    rw [Check.fields]
    exact steady_pure
  | cons init rest =>
    rw [Check.fields]
    exact steady_attempt steady_pure

theorem steady_block (b : Block Expr) : Steady (Check.block ctx fr b) := by
  rw [Check.block.eq_def]
  exact steady_open rfl

theorem steady_bindParams {params : List Param} {types : List TypeId} : Steady (bindParams fr params types) := by
  cases params with
  | nil => exact steady_pure
  | cons p params =>
    cases types with
    | nil => exact steady_demand fun _ => steady_pure
    | cons t types => exact @steady_open _ _ _ id rfl

/-- A walk contains another one: if that one ends, so does the whole walk, with the same store. -/
def Contains (c : Check α) (st : CheckState) (d : Check β) (st' : CheckState) : Prop :=
  ∀ why, (d.run st').2.stop = some why → (c.run st).2.stop = some why ∧ (c.run st).2.store = (d.run st').2.store

theorem contains_first {c : Check α} {f : α → Check β} (hf : ∀ x, Steady (f x)) : Contains (c >>= f) st c st :=
  fun why hstop => hf _ _ why hstop

theorem contains_later {γ : Type} {d : Check γ} {x : α} (hrun : c.run st = (x, st')) (h : Contains (f x) st' d st'') :
    Contains (c >>= f) st d st'' := by
  intro why hstop
  change ((f (c.run st).1).run (c.run st).2).2.stop = _ ∧ ((f (c.run st).1).run (c.run st).2).2.store = _
  rw [hrun]
  exact h why hstop

/-- A node is skipped if it has a type. -/
theorem skip_untyped {info : Info} (h : info.type = none) : (false || info.type.isSome) = false := by
  rw [h]
  rfl

private theorem contains_untyped {γ : Type} {d : Check γ} {x : α} {info : Info} (hopen : st.stop = none)
    (huntyped : info.type = none) (h : Contains c st d st') :
    Contains (do if (← stopped) || info.type.isSome then return x else c) st d st' := by
  intro why hstop
  rw [run_open hopen (skip_untyped huntyped)]
  exact h why hstop

theorem steady_node {info : Info} {rule : Action Info} {make : Info → α} :
    Steady (do return make (← conclude info rule)) :=
  steady_conclude fun _ => steady_pure

end Check

section

variable {v w : Visit} {options : Options} {own : FrameId} {header : Header} {body : Block Expr} {st : CheckState}

/-- A nested function contains the walk through the function in its own frame. -/
theorem contains_nested {c : Context} {fr : FrameId} {st₁ : CheckState} {info : Info} (hopen : st.stop = none)
    (huntyped : info.type = none) (hnested : (attempt (enterNested fr header)).run st = (some own, st₁)) :
    Contains (Check.expr c fr (.function info header body)) st
      (functionWith c.options own info header body fun c frame => Check.block c frame body) st₁ := by
  rw [Check.expr]
  refine contains_untyped hopen huntyped ?_
  exact contains_later hnested (contains_first fun _ => steady_pure)

end

/-! ### Scopes of visits -/

namespace Part

/-- The declarations and names in a part. -/
def mentions : Part → List Mention
  | .expr e => e.mentions
  | .option e => Expr.optionMentions e
  | .exprs es => Expr.mentionsAll es
  | .fields _ _ _ inits => Expr.mentionsFields inits
  | .block b => Expr.mentionsBlock b

/-- The identifiers in a part. -/
def uses (functions : List Variable) (σ : Scope) : Part → List Use
  | .expr e => e.uses functions σ
  | .option e => Expr.optionUses functions σ e
  | .exprs es => Expr.usesAll functions σ es
  | .fields _ _ _ inits => Expr.usesFields functions σ inits
  | .block b => Expr.usesBlock functions σ b

/-- A part without annotations; the fields of a struct literal have types that are known. -/
def Fresh (s : Store) : Part → Prop
  | .expr e => ∃ b, e.Fresh b
  | .option e => ∀ x ∈ e, x.Fresh false
  | .exprs es => ∃ b, ∀ e ∈ es, e.Fresh b
  | .fields _ declared _ inits => (∀ f ∈ inits, f.value.Fresh false) ∧ ∀ d ∈ declared, s.Known d.2
  | .block b => (Expr.block b).Fresh false

end Part

/-- A visit of a fresh part, with a sound store and in a frame that shows the scope of the part. -/
structure Visit.Sound (L : Listing) (functions : List Variable) (uses : List Use) (σ : Scope) (v : Visit) : Prop where
  ready : Ready L functions v.context v.frame σ v.part.mentions v.state
  fresh : v.part.Fresh v.state.store
  used : ∀ u ∈ v.part.uses functions σ, u ∈ uses

section

variable {L : Listing} {functions : List Variable} {uses : List Use} {σ : Scope} {c : Context} {fr : FrameId}
  {ms : List Mention} {st st₁ st₂ : CheckState} {e e' : Expr}

/-- Behind an expression the next part is ready. -/
private theorem Expr.Fresh.behind {b : Bool} (hf : e.Fresh b) (hr : Ready L functions c fr σ (e.mentions ++ ms) st)
    (hrun : (Check.expr c fr e).run st = (e', st₁)) : Ready L functions c fr (σ.declare e.declared) ms st₁ :=
  hr.declare ((walks_iff hrun).mp (checks_expr e hf c fr σ st hr.left)).1

private theorem Expr.Fresh.behind_value (hf : e.Fresh false) (hr : Ready L functions c fr σ (e.mentions ++ ms) st)
    (hrun : (Check.expr c fr e).run st = (e', st₁)) : Ready L functions c fr σ ms st₁ := by
  have hready := hf.behind hr hrun
  rwa [hf.declared_eq, Scope.declare_nil] at hready

/-- Behind an expression that is expected to have a type the next part is ready. -/
private theorem Expr.Fresh.behind_expected {t : TypeId} (hf : e.Fresh false)
    (hr : Ready L functions c fr σ (e.mentions ++ ms) st) (ht : st.store.Known t)
    (hrun : (Check.expr c fr e).run st = (e', st₁)) (hexpected : (demand (expectExpr e' t)).run st₁ = ((), st₂)) :
    Ready L functions c fr σ ms st₂ ∧ st.store.GrowsTo st₂.store := by
  obtain ⟨hgo₁, htyped⟩ := (walks_iff hrun).mp (checks_expr e hf c fr σ st hr.left)
  have hr₁ := hf.behind_value hr hrun
  have hdemand : Walks L fr {} (demand (expectExpr e' t)) st₁ fun _ _ => True := by
    refine walks_demand (P := fun _ => True) hr₁.sound fun hstop => ?_
    obtain ⟨u, hu⟩ := (htyped hstop).typed
    exact ((keeps_expectExpr hr₁.sound.store hu (hgo₁.grows.known ht)).mono
      (fun _ _ _ _ _ => trivial) fun _ h => h).moves
  obtain ⟨hgo₂, -⟩ := (walks_iff hexpected).mp hdemand
  exact ⟨hr₁.step hgo₂, hgo₁.grows.trans hgo₂.grows⟩

/-- The frame of a block shows a layer of its own. -/
private theorem Ready.nest {inner : FrameId} (hr : Ready L functions c fr σ ms st) (hopen : st.stop = none)
    (hnest : (attempt (Action.nest fr)).run st = (some inner, st₁)) : Ready L functions c inner ([] :: σ) ms st₁ := by
  have hwalks : Walks L st.store.frames.size {} (attempt (Action.nest fr)) st _ :=
    walks_attempt hr.sound (fun _ => moves_nest hr.sound.store (hr.shows hopen)) fun _ => .inl
  obtain ⟨hgo, hP⟩ := (walks_iff hnest).mp hwalks
  obtain ⟨_, heq, rfl, hshows, -⟩ := hP (attempt_alive hnest)
  cases heq
  exact hr.enter hgo (Nat.le_refl _) (fun r h => hgo.grows.settled (hr.returns r h)) hshows

/-- The frame of a nested function shows the function itself and those of the module. -/
theorem Ready.nested {header : Header} {body : Block Expr} {own : FrameId}
    (hr : Ready L functions c fr σ (header.mentions ++ Expr.mentionsBlock body) st)
    (hexported : header.exported = false)
    (hnested : (attempt (enterNested fr header)).run st = (some own, st₁)) :
    Prepared L functions (Expr.mentionsBlock body) st₁ ∧ st₁.store.Shows own [[header.binding], functions] ∧
      L.Lists header.mentions ∧ (st₁.store.function header.span).variableType.isSome = true := by
  have hlisted : L.Lists header.mentions := (Listing.lists_append.mp hr.listed).1
  have hr' : Ready L functions c fr σ ([.function header] ++ Expr.mentionsBlock body) st := by
    refine hr.sub ?_
    simp [Header.mentions]
  have hnew : st.store.function header.span = {} := hr'.unseen header (by simp)
  obtain ⟨hgo, hP⟩ := (walks_iff hnested).mp (walks_attempt (p := ⟨[.function header], [], [header.binding]⟩) hr.sound
    (fun _ => moves_enterNested hr.sound.store hr.frame hr.inner hexported hlisted hnew hr.module) fun _ => .inl)
  obtain ⟨_, heq, -, hshows, hregistered⟩ := hP (attempt_alive hnested)
  cases heq
  exact ⟨(hr'.declare hgo).toPrepared, hshows, hlisted, hregistered⟩

/-- The visit of the body of a function, in a frame with its parameters. -/
theorem Visit.Begins.sound {options : Options} {own : FrameId} {header : Header} {body : Block Expr} {v : Visit}
    (h : v.Begins options own header body st) (hr : Prepared L functions (Expr.mentionsBlock body) st)
    (hshows : st.store.Shows own σ) (hlisted : L.Lists header.mentions)
    (hregistered : (st.store.function header.span).variableType.isSome = true) (hparams : ∀ p ∈ header.params, p.Fresh)
    (hbody : (Expr.block body).Fresh false)
    (hused : ∀ u ∈ Expr.usesBlock functions (header.params.map (·.binding) :: σ) body, u ∈ uses) :
    v.Sound L functions uses (header.params.map (·.binding) :: σ) := by
  cases h with
  | @body entry params st₁ st₂ henter hbind =>
    have hmoves : Moves L st.store.frames.size [] [] st.store (enterFunction own header) _ _ :=
      moves_enterFunction hr.sound.store hr.sound.idle hshows hlisted hregistered
    obtain ⟨hgo₁, hP⟩ := (walks_iff henter).mp (walks_attempt (p := {}) hr.sound (fun _ => hmoves) fun _ => .inl)
    obtain ⟨_, heq, hframe, hshows₁, he, hlen⟩ := hP (attempt_alive henter)
    cases heq
    obtain ⟨hsettled, -, hreturns⟩ := hgo₁.moves.sound.types.functionTypes _ _ _ he
    rw [← hframe] at hgo₁
    have hr₁ : Ready L functions ⟨options, some entry.returns⟩ entry.frame ([] :: σ) (Expr.mentionsBlock body) st₁ :=
      hr.enter hgo₁ (Nat.le_of_eq hframe.symm) (by rintro _ ⟨⟩; exact hreturns) hshows₁
    obtain ⟨hgo₂, -⟩ := (walks_iff hbind).mp
      (walks_bindParams hr₁.sound hr₁.frame hparams (fun t ht => (hsettled t ht).2) hlen)
    have hr₂ : Ready L functions _ entry.frame (header.params.map (·.binding) :: σ) (Expr.mentionsBlock body) st₂ :=
      Ready.declare (show Ready L functions _ _ _ ([] ++ Expr.mentionsBlock body) st₁ from hr₁) hgo₂
    exact ⟨hr₂.step (.of_same hr₂.sound rfl rfl), hbody, hused⟩

/-- A sound visit leads to sound visits. -/
theorem Visit.Step.sound {v w : Visit} (h : v.Step w) (hv : v.Sound L functions uses σ) :
    ∃ σ', w.Sound L functions uses σ' := by
  obtain ⟨hr, hf, hu⟩ := hv
  cases h with
  | memberBase =>
    obtain ⟨b, hf⟩ := hf
    cases hf with
    | member hbase => exact ⟨σ, hr, ⟨_, hbase⟩, hu⟩
  | callee =>
    obtain ⟨b, hf⟩ := hf
    cases hf with
    | call hcallee => exact ⟨σ, hr.left, ⟨_, hcallee⟩, fun u h => hu u (List.mem_append_left _ h)⟩
  | arguments _ _ hrun =>
    obtain ⟨b, hf⟩ := hf
    cases hf with
    | call hcallee hargs =>
      exact ⟨σ, hcallee.behind_value hr hrun, ⟨_, hargs⟩, fun u h => hu u (List.mem_append_right _ h)⟩
  | builtinArguments _ _ hfind =>
    obtain ⟨b, hf⟩ := hf
    obtain ⟨hname, -⟩ := Listing.lists_cons.mp hr.listed
    obtain ⟨hgo, -⟩ := (walks_iff hfind).mp (walks_learn hr.sound fun _ => keeps_findBuiltin hr.sound.store hname)
    cases hf with
    | builtinCall hargs => exact ⟨σ, (hr.sub (List.sublist_cons_self _ _)).step hgo, ⟨_, hargs⟩, hu⟩
  | operand =>
    obtain ⟨b, hf⟩ := hf
    cases hf with
    | unary hoperand => exact ⟨σ, hr, ⟨_, hoperand⟩, hu⟩
  | left =>
    obtain ⟨b, hf⟩ := hf
    cases hf with
    | binary hlhs => exact ⟨σ, hr.left, ⟨_, hlhs⟩, fun u h => hu u (List.mem_append_left _ h)⟩
  | right _ _ hrun =>
    obtain ⟨b, hf⟩ := hf
    cases hf with
    | binary hlhs hrhs =>
      exact ⟨σ, hlhs.behind_value hr hrun, ⟨_, hrhs⟩, fun u h => hu u (List.mem_append_right _ h)⟩
  | target =>
    obtain ⟨b, hf⟩ := hf
    cases hf with
    | assignment htarget => exact ⟨σ, hr.left, ⟨_, htarget⟩, fun u h => hu u (List.mem_append_left _ h)⟩
  | source _ _ hrun =>
    obtain ⟨b, hf⟩ := hf
    cases hf with
    | assignment htarget hsource =>
      exact ⟨σ, htarget.behind_value hr hrun, ⟨_, hsource⟩, fun u h => hu u (List.mem_append_right _ h)⟩
  | literalFields _ _ hstruct =>
    obtain ⟨b, hf⟩ := hf
    obtain ⟨hname, -⟩ := Listing.lists_cons.mp hr.listed
    obtain ⟨hgo, hP⟩ := (walks_iff hstruct).mp
      (walks_learn hr.sound fun _ => keeps_literalStruct hr.sound.store hr.sound.idle hr.frame hname)
    obtain ⟨_, heq, -, decl, he⟩ := hP (attempt_alive hstruct)
    cases heq
    have hr₁ := (hr.sub (List.sublist_cons_self _ _)).step hgo
    have hknown := fun d hd => ((hr₁.sound.store.types.resolved _ decl _ he).1 d hd).1
    cases hf with
    | structLiteral hinits => exact ⟨σ, hr₁, ⟨hinits, hknown⟩, hu⟩
  | initial =>
    obtain ⟨b, hf⟩ := hf
    cases hf with
    | letBinding hinit => exact ⟨σ, hr.right, ⟨_, hinit⟩, hu⟩
  | block =>
    obtain ⟨b, hf⟩ := hf
    refine ⟨σ, hr, ?_, hu⟩
    cases hf with
    | block hstmts htail => exact .block hstmts htail
  | ifCondition =>
    obtain ⟨b, hf⟩ := hf
    cases hf with
    | ifElse hcond =>
        exact ⟨σ, hr.left.left, ⟨_, hcond⟩, fun u h => hu u (List.mem_append_left _ (List.mem_append_left _ h))⟩
  | thenBlock _ _ hrun hbool =>
    obtain ⟨b, hf⟩ := hf
    cases hf with
    | ifElse hcond hthen =>
      have hr₂ := (hcond.behind_expected hr.left (hr.sound.store.settled rfl).1 hrun hbool).1
      exact ⟨σ, hr₂, hthen, fun u h => hu u (List.mem_append_left _ (List.mem_append_right _ h))⟩
  | @elseBranch c fr st _ _ _ _ cond _ thenBlock _ other _ _ hrun hbool hrun' =>
    obtain ⟨b, hf⟩ := hf
    have hassoc :
        Ready L functions c fr σ (cond.mentions ++ (Expr.mentionsBlock thenBlock ++ Expr.optionMentions other)) st := by
      simpa [Part.mentions, Expr.mentions] using hr
    cases hf with
    | ifElse hcond hthen hother =>
      have hr₂ := (hcond.behind_expected hassoc (hr.sound.store.settled rfl).1 hrun hbool).1
      have hgo₃ := ((walks_iff hrun').mp (checks_blockOf _ hthen _ _ σ _ hr₂.left)).1
      exact ⟨σ, hr₂.next hgo₃, hother, fun u h => hu u (List.mem_append_right _ h)⟩
  | whileCondition =>
    obtain ⟨b, hf⟩ := hf
    cases hf with
    | whileLoop hcond => exact ⟨σ, hr.left, ⟨_, hcond⟩, fun u h => hu u (List.mem_append_left _ h)⟩
  | whileBody _ _ hrun hbool =>
    obtain ⟨b, hf⟩ := hf
    cases hf with
    | whileLoop hcond hbody =>
      have hr₂ := (hcond.behind_expected hr (hr.sound.store.settled rfl).1 hrun hbool).1
      exact ⟨σ, hr₂.step (.of_same hr₂.sound rfl rfl), hbody, fun u h => hu u (List.mem_append_right _ h)⟩
  | endlessBody =>
    obtain ⟨b, hf⟩ := hf
    cases hf with
    | endlessLoop hbody => exact ⟨σ, hr.step (.of_same hr.sound rfl rfl), hbody, hu⟩
  | result =>
    obtain ⟨b, hf⟩ := hf
    cases hf with
    | leaveFunction hresult => exact ⟨σ, hr, hresult, hu⟩
  | @nested c fr st st₁ info header body own v _ _ hnested hbegins =>
    obtain ⟨b, hf⟩ := hf
    cases hf with
    | function hexported hparams hbody =>
      obtain ⟨hprepared, hshows, hlisted, hregistered⟩ := hr.nested hexported hnested
      exact ⟨_, hbegins.sound hprepared hshows hlisted hregistered hparams hbody hu⟩
  | present => exact ⟨σ, hr, ⟨_, hf _ rfl⟩, hu⟩
  | head =>
    obtain ⟨b, hf⟩ := hf
    exact ⟨σ, hr.left, ⟨_, hf _ List.mem_cons_self⟩, fun u h => hu u (List.mem_append_left _ h)⟩
  | tail hrun =>
    obtain ⟨b, hf⟩ := hf
    exact ⟨_, (hf _ List.mem_cons_self).behind hr hrun, ⟨_, fun e he => hf e (List.mem_cons_of_mem _ he)⟩,
      fun u h => hu u (List.mem_append_right _ h)⟩
  | fieldValue hfield =>
    obtain ⟨hgo, -⟩ := (walks_iff hfield).mp (walks_learn hr.sound fun _ => keeps_field hr.sound.store)
    exact ⟨σ, (hr.step hgo).left, ⟨_, hf.1 _ List.mem_cons_self⟩, fun u h => hu u (List.mem_append_left _ h)⟩
  | laterFields hfield hrun hfits =>
    obtain ⟨hgo, hP⟩ := (walks_iff hfield).mp (walks_learn hr.sound fun _ => keeps_field hr.sound.store)
    obtain ⟨_, heq, hmem, -⟩ := hP (attempt_alive hfield)
    cases heq
    have hr₁ := hr.step hgo
    have hvalue : Expr.Fresh false _ := hf.1 _ List.mem_cons_self
    obtain ⟨hr₃, hg⟩ := hvalue.behind_expected hr₁ (hgo.grows.known (hf.2 _ hmem)) hrun hfits
    exact ⟨σ, hr₃, ⟨fun f h => hf.1 f (List.mem_cons_of_mem _ h), fun d hd => (hgo.grows.trans hg).known (hf.2 d hd)⟩,
      fun u h => hu u (List.mem_append_right _ h)⟩
  | statements hopen _ hnest =>
    cases hf with
    | block hstmts htail =>
      exact ⟨_, (hr.nest hopen hnest).left, ⟨_, hstmts⟩, fun u h => hu u (List.mem_append_left _ h)⟩
  | blockTail hopen _ hnest hrun =>
    cases hf with
    | block hstmts htail =>
      have hr₁ := hr.nest hopen hnest
      have hgo := ((walks_iff hrun).mp (checks_statements _ hstmts _ _ _ _ hr₁.left)).1
      exact ⟨_, hr₁.declare hgo, htail, fun u h => hu u (List.mem_append_right _ h)⟩

/-- All visits that a sound visit leads to are sound. -/
theorem Visit.Sound.reaches {v w : Visit} (hv : v.Sound L functions uses σ) (h : ReflTransGen Visit.Step v w) :
    ∃ σ', w.Sound L functions uses σ' := by
  induction h with
  | refl => exact ⟨σ, hv⟩
  | tail _ hstep ih =>
    obtain ⟨σ', hsound⟩ := ih
    exact hstep.sound hsound

/-! ### Identifiers -/

/-- What becomes of an identifier that is visited: nothing has its name, or it is bound, or a function is refused. -/
inductive Bound (L : Listing) (info : Info) (name : String) (meaning : Option Variable) :
    Expr → Option Stop → Prop where
  | unknown (hmeaning : meaning = none) :
      Bound L info name meaning (.identifier info name none) (some (.refused ⟨info.span, .unknownSymbol name⟩))
  | found {v : Variable} {i : Info} {stop : Option Stop} (hmeaning : meaning = some v.bare) :
      Bound L info name meaning (.identifier i name (some v)) stop
  | refused {v : Variable} {why : Diagnostic} (hmeaning : meaning = some v.bare) (hfunction : v.kind.isFunction = true)
      (hwhy : L.Blames why) : Bound L info name meaning (.identifier info name none) (some (.refused why))

/-- An identifier that is visited is bound to what its scope says. -/
theorem Visit.Sound.identifier {info : Info} {name : String} {binding : Option Variable}
    (hv : Visit.Sound L functions uses σ ⟨c, fr, .expr (.identifier info name binding), st⟩) (hopen : st.stop = none)
    (hrun : (Check.expr c fr (.identifier info name binding)).run st = (e', st₁)) :
    ⟨info.span, name, σ⟩ ∈ uses ∧ Bound L info name (σ.find? name) e' st₁.stop := by
  obtain ⟨hr, ⟨b, hf⟩, hu⟩ := hv
  refine ⟨hu _ List.mem_cons_self, ?_⟩
  cases hf with
  | @identifier _ span name =>
    have hs := hr.sound
    obtain ⟨r, hlookup, hbare⟩ := (hr.shows hopen).lookup hs.store.frames name
    have hends : Keeps L st.store (identifierRule fr { span } name) _ _ :=
      keeps_identifier hs.store hs.idle hr.frame rfl hlookup
    unfold Keeps Ends at hends
    rw [Check.expr, run_open hopen rfl, StateT.run_bind, run_attempt hopen] at hrun
    rcases ha : (identifierRule fr { span } name).run.run st.store with ⟨(why | f) | ⟨v, found⟩, s'⟩
    · rw [ha] at hends hrun
      obtain ⟨-, -, ⟨rfl, rfl⟩ | ⟨v, rfl, hallows, hfunction⟩⟩ := hends
      · cases hrun
        exact .unknown hbare.symm
      · cases hrun
        exact .refused hbare.symm hfunction hallows.blames
    · rw [ha] at hends
      exact hends.elim
    · rw [ha] at hends hrun
      obtain ⟨-, -, rfl, -⟩ := hends
      cases hrun
      exact .found hbare.symm

end

end RainCheck
