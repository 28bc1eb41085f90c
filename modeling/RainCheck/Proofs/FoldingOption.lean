import RainCheck.Proofs.Valuing

/-!
# Compilations that compute builtins

Two compilations of a file, of which the second one computes builtins on constants, take the same steps.
* (walks) Two walks through a tree leave the same state behind them, and trees that differ by values (`Check.Agree`).
* (phases) Before bodies are checked there is no difference; behind each body the stores and the problems are the same.

So an option that only adds values never changes a verdict (`compile_foldsTo`).
-/

namespace RainCheck

open Check RainCheck.Action

/-! ### Walks that agree -/

namespace Check

variable {α β γ δ : Type} {R : α → β → Prop} {Q : γ → δ → Prop} {st : CheckState}

/-- Two walks leave the same state and results such that `R` holds; or the second one ends with a fault. -/
def Agree (R : α → β → Prop) (a : Check α) (b : Check β) : Prop :=
  ∀ st, (∃ f, (b.run st).2.stop = some (.fault f)) ∨ (b.run st).2 = (a.run st).2 ∧ R (a.run st).1 (b.run st).1

private theorem agree_pure {x : α} {y : β} (h : R x y) : Agree R (pure x) (pure y) := fun _ => .inr ⟨rfl, h⟩

private theorem agree_same {R : α → α → Prop} (c : Check α) (h : ∀ x, R x x) : Agree R c c := fun _ => .inr ⟨rfl, h _⟩

/-- What follows a walk keeps a fault, as a walk that has ended changes nothing more. -/
private theorem Agree.bind {a : Check α} {b : Check β} {f : α → Check γ} {g : β → Check δ} (h : Agree R a b)
    (hg : ∀ y, Steady (g y)) (hf : ∀ x y, R x y → Agree Q (f x) (g y)) : Agree Q (a >>= f) (b >>= g) := by
  intro st
  rcases h st with ⟨why, hfault⟩ | ⟨hstate, hR⟩
  · exact .inl ⟨why, (hg _ _ _ hfault).1⟩
  · have hnext := hf _ _ hR (b.run st).2
    rw [StateT.run_bind, StateT.run_bind]
    change (∃ why, ((g (b.run st).1).run (b.run st).2).2.stop = some (.fault why)) ∨
      ((g (b.run st).1).run (b.run st).2).2 = ((f (a.run st).1).run (a.run st).2).2 ∧
      Q ((f (a.run st).1).run (a.run st).2).1 ((g (b.run st).1).run (b.run st).2).1
    rw [← hstate]
    exact hnext

/-- What comes first is the same in both. -/
private theorem agree_then {a : Check α} {f : α → Check γ} {g : α → Check δ} (hg : ∀ x, Steady (g x))
    (h : ∀ x, Agree Q (f x) (g x)) : Agree Q (a >>= f) (a >>= g) :=
  (agree_same (R := Eq) a fun _ => rfl).bind hg fun x _ hxy => hxy ▸ h x

private theorem Agree.map {a : Check α} {b : Check β} {f : α → γ} {g : β → δ} (h : Agree R a b)
    (hf : ∀ x y, R x y → Q (f x) (g y)) : Agree Q (do return f (← a)) (do return g (← b)) :=
  h.bind (fun _ => steady_pure) fun x y hxy => agree_pure (hf x y hxy)

/-- A part that is skipped on both sides. -/
private theorem agree_open {x : α} {y : β} {a : Check α} {b : Check β} {skip : Bool → Bool}
    (hR : R x y) (h : Agree R a b) :
    Agree R (do if skip (← stopped) then return x else a) (do if skip (← stopped) then return y else b) := by
  intro st
  change (∃ f, ((if skip st.stop.isSome then (pure y : Check β) else b).run st).2.stop = some (.fault f)) ∨
    ((if skip st.stop.isSome then (pure y : Check β) else b).run st).2 =
      ((if skip st.stop.isSome then (pure x : Check α) else a).run st).2 ∧
    R ((if skip st.stop.isSome then (pure x : Check α) else a).run st).1
      ((if skip st.stop.isSome then (pure y : Check β) else b).run st).1
  split
  · exact .inr ⟨rfl, hR⟩
  · exact h st

private theorem agree_attempt {a : Action α} {b : Action β} (h : Action.Agree R a b) :
    Agree (Option.Rel R) (attempt a) (attempt b) := by
  intro st
  cases hstop : st.stop with
  | some why =>
    rw [run_attempt_ended hstop, run_attempt_ended hstop]
    exact .inr ⟨rfl, .none⟩
  | none =>
    rw [run_attempt hstop, run_attempt hstop]
    rcases h st.store with ⟨f, s', hb⟩ | ⟨x, y, s', ha, hb, hR⟩ | ⟨why, s', ha, hb⟩
    · rw [hb]
      exact .inl ⟨f, rfl⟩
    · rw [ha, hb]
      exact .inr ⟨rfl, .some hR⟩
    · rw [ha, hb]
      exact .inr ⟨rfl, .none⟩

/-- An action that always gives results such that `P` holds, in two walks. -/
private theorem agree_attempt_always {a : Action α} {P : α → Prop} (h : a.Always P) :
    Agree (Option.Rel fun x y => y = x ∧ P x) (attempt a) (attempt a) := by
  refine agree_attempt fun s => ?_
  rcases hrun : a.run.run s with ⟨why | x, s'⟩
  · exact .inr (.inr ⟨why, s', rfl, rfl⟩)
  · exact .inr (.inl ⟨x, x, s', rfl, rfl, rfl, h s x s' hrun⟩)

variable {info : Info}

private theorem agree_conclude {rule rule' : Action Info} (hinfo : info.Silent)
    (h : Action.Agree Info.FoldsTo rule rule') :
    Agree Info.FoldsTo (conclude info rule) (conclude info rule') := by
  refine Agree.map (agree_attempt (h.bind fun i j hij => agree_settle hij)) fun o o' ho => ?_
  cases ho with
  | none => exact hinfo.foldsTo
  | some hij => exact hij

/-- What is known about a node is said by a rule that is applied to parts that differ by values. -/
private theorem agree_node {rule rule' : Action Info} {make : Info → α} {make' : Info → β} (hinfo : info.Silent)
    (h : Action.Agree Info.FoldsTo rule rule') (hmake : ∀ i j, i.FoldsTo j → R (make i) (make' j)) :
    Agree R (do return make (← conclude info rule)) (do return make' (← conclude info rule')) :=
  (agree_conclude hinfo h).map hmake

/-- A value that is the same whatever is computed. -/
private theorem agree_constant {t : TypeId} {v : Value} :
    Action.Agree Info.FoldsTo (pure (info.fold t v) : Action Info) (pure (info.fold t v)) :=
  Action.agree_pure ⟨rfl, rfl, rfl, rfl, id, fun _ h => h, fun _ => rfl⟩

end Check

/-! ### Trees -/

/-- Contexts that differ by whether builtins are computed. -/
structure Context.FoldsTo (c c' : Context) : Prop where
  options : c.options.FoldsTo c'.options
  returns : c'.returns = c.returns

/-- A block, and the same block with more values. -/
def Block.FoldsTo (b b' : Block Expr) : Prop := (Expr.block b).FoldsTo (.block b')

/-- A tree that is walked through alike whether builtins are computed or not. -/
structure Expr.Alike (e : Expr) : Prop where
  self : e.FoldsTo e
  walk : ∀ {c c' : Context} (fr : FrameId), c.FoldsTo c' →
    Check.Agree Expr.FoldsTo (Check.expr c fr e) (Check.expr c' fr e)

section

variable {c c' : Context} {fr : FrameId} {info : Info}

private theorem agree_option {e : Option Expr} (h : ∀ x ∈ e, x.Alike) (hc : c.FoldsTo c') :
    Check.Agree (Option.Rel Expr.FoldsTo) (Check.option c fr e) (Check.option c' fr e) := by
  cases e with
  | none =>
    rw [Check.option, Check.option]
    exact Check.agree_pure .none
  | some e =>
    rw [Check.option, Check.option]
    exact ((h e rfl).walk fr hc).map fun _ _ he => .some he

private theorem agree_exprs {es : List Expr} (h : ∀ e ∈ es, e.Alike) (hc : c.FoldsTo c') :
    Check.Agree (List.Forall₂ Expr.FoldsTo) (Check.exprs c fr es) (Check.exprs c' fr es) := by
  induction es with
  | nil =>
    rw [Check.exprs, Check.exprs]
    exact Check.agree_pure .nil
  | cons e rest ih =>
    rw [Check.exprs, Check.exprs]
    refine ((h e List.mem_cons_self).walk fr hc).bind (fun _ => (steady_exprs rest).bind fun _ => steady_pure)
      fun _ _ he => ?_
    exact (ih fun x hx => h x (List.mem_cons_of_mem _ hx)).map fun _ _ hrest => .cons he hrest

private theorem foldsTo_fields {inits : List (FieldInit Expr)} (h : ∀ f ∈ inits, f.value.Alike) :
    List.Forall₂ (FieldInit.Rel Expr.FoldsTo) inits inits :=
  List.forall₂_same.mpr fun f hf => ⟨(h f hf).self⟩

private theorem agree_fields {inits : List (FieldInit Expr)} {owner : String} {declared : List (String × TypeId)}
    {seen : List String} (h : ∀ f ∈ inits, f.value.Alike) (hc : c.FoldsTo c') :
    Check.Agree (List.Forall₂ (FieldInit.Rel Expr.FoldsTo)) (Check.fields c fr owner declared seen inits)
      (Check.fields c' fr owner declared seen inits) := by
  induction inits generalizing seen with
  | nil =>
    rw [Check.fields, Check.fields]
    exact Check.agree_pure .nil
  | cons init rest ih =>
    have hself := foldsTo_fields h
    have hvalue := h init List.mem_cons_self
    have hbehind : ∀ {α : Type} {seen : List String} {f : List (FieldInit Expr) → α},
        Steady (do return f (← Check.fields c' fr owner declared seen rest)) :=
      (steady_fields rest).bind fun _ => steady_pure
    obtain ⟨name, span, value⟩ := init
    rw [Check.fields, Check.fields]
    refine Check.agree_then (fun o => ?_) fun o => ?_
    · cases o with
      | none => exact steady_pure
      | some type => exact (steady_expr value).bind fun _ => steady_demand fun _ => hbehind
    cases o with
    | none => exact Check.agree_pure hself
    | some type =>
      refine (hvalue.walk fr hc).bind (fun _ => steady_demand fun _ => hbehind) fun x y hxy => ?_
      rw [expectExpr_eq hxy]
      refine Check.agree_then (fun _ => hbehind) fun _ => ?_
      exact (ih fun f hf => h f (List.mem_cons_of_mem _ hf)).map fun _ _ hmore => .cons ⟨hxy⟩ hmore

private theorem agree_block {entered : Option FrameId} {stmts : List Expr} {tail : Option Expr} (hinfo : info.Silent)
    (hstmts : ∀ e ∈ stmts, e.Alike) (htail : ∀ e ∈ tail, e.Alike)
    (hself : Block.FoldsTo ⟨info, entered, stmts, tail⟩ ⟨info, entered, stmts, tail⟩) (hc : c.FoldsTo c') :
    Check.Agree Block.FoldsTo (Check.block c fr ⟨info, entered, stmts, tail⟩)
      (Check.block c' fr ⟨info, entered, stmts, tail⟩) := by
  rw [Check.block, Check.block]
  refine Check.agree_open hself ?_
  refine Check.agree_then (fun o => ?_) fun o => ?_
  · cases o with
    | none => exact steady_pure
    | some inner => exact (steady_exprs stmts).bind fun _ => (steady_option tail).bind fun _ => steady_node
  cases o with
  | none => exact Check.agree_pure hself
  | some inner =>
    refine (agree_exprs hstmts hc).bind (fun _ => (steady_option tail).bind fun _ => steady_node) fun _ _ hs => ?_
    refine (agree_option htail hc).bind (fun _ => steady_node) fun _ _ ht => ?_
    rw [blockRule_eq hs ht]
    exact Check.agree_node hinfo (blockRule_silent hinfo).agree fun _ _ hi => .block hi hs ht

/-- A block is walked through alike, if it is as an expression. -/
private theorem Expr.Alike.block {b : Block Expr} (h : (Expr.block b).Alike) (huntyped : b.info.type = none)
    (hc : c.FoldsTo c') : Check.Agree Block.FoldsTo (Check.block c fr b) (Check.block c' fr b) := by
  have hrun : ∀ (c : Context) st, st.stop = none →
      (Check.expr c fr (.block b)).run st =
      (.block ((Check.block c fr b).run st).1, ((Check.block c fr b).run st).2) := by
    intro c st hstop
    rw [Check.expr]
    exact run_open hstop (by exact skip_untyped huntyped)
  have hended : ∀ (c : Context) {st : CheckState} {why : Stop}, st.stop = some why →
      (Check.block c fr b).run st = (b, st) := by
    intro c st why hstop
    rw [Check.block.eq_def]
    exact run_ended hstop rfl
  intro st
  cases hstop : st.stop with
  | none =>
    have hst := h.walk fr hc st
    rw [hrun c st hstop, hrun c' st hstop] at hst
    exact hst
  | some why =>
    rw [hended c hstop, hended c' hstop]
    exact .inr ⟨rfl, h.self⟩

/-! ### Functions -/

private theorem steady_loops {α : Type} (change : List Bool → List Bool) {f : PUnit → Check α}
    (hf : ∀ u, Steady (f u)) :
    Steady ((modify fun st : CheckState => { st with loops := change st.loops }) >>= f) :=
  Steady.bind (steady_same fun _ => ⟨rfl, rfl⟩) hf

private theorem steady_get {α : Type} {f : CheckState → Check α} (hf : ∀ st, Steady (f st)) : Steady (get >>= f) :=
  Steady.bind (steady_same fun _ => ⟨rfl, rfl⟩) hf

private theorem steady_exitLoop {α : Type} {f : Bool → Check α} (hf : ∀ left, Steady (f left)) :
    Steady (exitLoop >>= f) :=
  Steady.bind (steady_same fun _ => ⟨rfl, rfl⟩) hf

private theorem steady_functionWith {options : Options} {own : FrameId} {header : Header} {body : Block Expr} :
    Steady (functionWith options own info header body fun c frame => Check.block c frame body) := by
  unfold functionWith
  split
  · exact steady_pure
  refine steady_attempt ?_
  exact steady_pure

private theorem agree_functionWith {options options' : Options} {own : FrameId} {header : Header} {body : Block Expr}
    (ho : options.FoldsTo options') (hinfo : info.Silent) (hbody : (Expr.block body).Alike)
    (huntyped : body.info.type = none) :
    Check.Agree (fun r r' => r.1.FoldsTo r'.1 ∧ r'.2.1 = r.2.1 ∧ r.2.2.FoldsTo r'.2.2)
      (functionWith options own info header body fun c frame => Check.block c frame body)
      (functionWith options' own info header body fun c frame => Check.block c frame body) := by
  unfold functionWith
  split
  · exact Check.agree_pure ⟨hinfo.foldsTo, rfl, hbody.self⟩
  have hwalk : ∀ (entry : Entry) (params : List Param) (loops : List Bool), Steady (do
      let body ← Check.block ⟨options', some entry.returns⟩ entry.frame body
      modify ({ · with loops })
      return (← conclude info (functionRule info body entry), { header with params }, body)) := fun _ _ loops =>
    (steady_block body).bind fun _ => steady_loops (fun _ => loops) fun _ => steady_node
  refine Check.agree_then (fun o => ?_) fun o => ?_
  · cases o with
    | none => exact steady_pure
    | some entry =>
      refine steady_bindParams.bind fun params => steady_get fun st => ?_
      exact steady_loops (fun _ => []) fun _ => hwalk entry params _
  cases o with
  | none => exact Check.agree_pure ⟨hinfo.foldsTo, rfl, hbody.self⟩
  | some entry =>
    refine Check.agree_then (fun params => steady_get fun st =>
      steady_loops (fun _ => []) fun _ => hwalk entry params _) fun params => ?_
    refine Check.agree_then (fun st => steady_loops (fun _ => []) fun _ => hwalk entry params _) fun st => ?_
    refine Check.agree_then (fun _ => hwalk entry params _) fun _ => ?_
    have hblock : Check.Agree Block.FoldsTo (Check.block ⟨options, some entry.returns⟩ entry.frame body)
        (Check.block ⟨options', some entry.returns⟩ entry.frame body) := hbody.block huntyped ⟨ho, rfl⟩
    refine hblock.bind (fun _ => steady_loops (fun _ => st.loops) fun _ => steady_node) fun x y hxy => ?_
    refine Check.agree_then (fun _ => steady_node) fun _ => ?_
    have hrule : Action.Agree Info.FoldsTo (functionRule info x entry) (functionRule info y entry) := by
      unfold functionRule
      rw [expectBlock_eq hxy]
      exact (functionRule_silent hinfo).agree
    exact Check.agree_node hinfo hrule fun _ _ hi => ⟨hi, rfl, hxy⟩

/-! ### Nodes, one lemma per kind -/

private theorem alike_integer {n : Int32} (hinfo : info.Silent) : (Expr.integer info n).Alike where
  self := .integer hinfo.foldsTo
  walk fr hc := by
    rw [Check.expr, Check.expr]
    refine Check.agree_open (.integer hinfo.foldsTo) ?_
    exact Check.agree_node hinfo Check.agree_constant fun _ _ hi => .integer hi

private theorem alike_float {x : Float} (hinfo : info.Silent) : (Expr.float info x).Alike where
  self := .float hinfo.foldsTo
  walk fr hc := by
    rw [Check.expr, Check.expr]
    refine Check.agree_open (.float hinfo.foldsTo) ?_
    exact Check.agree_node hinfo Check.agree_constant fun _ _ hi => .float hi

private theorem alike_boolean {b : Bool} (hinfo : info.Silent) : (Expr.boolean info b).Alike where
  self := .boolean hinfo.foldsTo
  walk fr hc := by
    rw [Check.expr, Check.expr]
    refine Check.agree_open (.boolean hinfo.foldsTo) ?_
    exact Check.agree_node hinfo Check.agree_constant fun _ _ hi => .boolean hi

private theorem alike_identifier {name : String} {v : Option Variable} (hinfo : info.Silent) :
    (Expr.identifier info name v).Alike := by
  have hself : (Expr.identifier info name v).FoldsTo (.identifier info name v) := .identifier hinfo.foldsTo
  refine ⟨hself, fun fr hc => ?_⟩
  rw [Check.expr, Check.expr]
  refine Check.agree_open hself ?_
  refine (Check.agree_attempt_always (identifierRule_silent hinfo)).bind (fun o => ?_) fun o o' ho => ?_
  · cases o with
    | none => exact steady_pure
    | some found => exact steady_node
  cases ho with
  | none => exact Check.agree_pure hself
  | some hfound =>
    obtain ⟨rfl, hsilent⟩ := hfound
    exact Check.agree_node hinfo (Action.agree_pure hsilent.foldsTo) fun _ _ hi => .identifier hi

private theorem alike_member {base : Expr} {name : String} {nameSpan : Span} {index : Nat} (hinfo : info.Silent)
    (hbase : base.Alike) : (Expr.member info base name nameSpan index).Alike := by
  have hself : (Expr.member info base name nameSpan index).FoldsTo (.member info base name nameSpan index) :=
    .member hinfo.foldsTo hbase.self
  refine ⟨hself, fun fr hc => ?_⟩
  rw [Check.expr, Check.expr]
  refine Check.agree_open hself ?_
  refine (hbase.walk fr hc).bind (fun x => steady_attempt steady_pure) fun x y hxy => ?_
  rw [memberRule_eq hxy]
  refine (Check.agree_attempt_always (memberRule_silent hinfo)).bind (fun o => ?_) fun o o' ho => ?_
  · cases o with
    | none => exact steady_pure
    | some found => exact steady_node
  cases ho with
  | none => exact Check.agree_pure (.member hinfo.foldsTo hxy)
  | some hfound =>
    obtain ⟨rfl, hsilent⟩ := hfound
    exact Check.agree_node hinfo (Action.agree_pure hsilent.foldsTo) fun _ _ hi => .member hi hxy

private theorem alike_call {callee : Expr} {args : List Expr} (hinfo : info.Silent) (hcallee : callee.Alike)
    (hargs : ∀ e ∈ args, e.Alike) : (Expr.call info callee args).Alike := by
  have hself := Expr.FoldsTo.call hinfo.foldsTo hcallee.self (List.forall₂_same.mpr fun e he => (hargs e he).self)
  refine ⟨hself, fun fr hc => ?_⟩
  rw [Check.expr, Check.expr]
  refine Check.agree_open hself ?_
  refine (hcallee.walk fr hc).bind (fun _ => (steady_exprs _).bind fun _ => steady_node) fun x y hxy => ?_
  refine (agree_exprs hargs hc).bind (fun _ => steady_node) fun _ _ hes => ?_
  rw [callRule_eq hxy hes]
  exact Check.agree_node hinfo (callRule_silent hinfo).agree fun _ _ hi => .call hi hxy hes

private theorem alike_builtinCall {name : String} {args : List Expr} (hinfo : info.Silent)
    (hargs : ∀ e ∈ args, e.Alike) :
    (Expr.builtinCall info name args).Alike := by
  have hself : (Expr.builtinCall info name args).FoldsTo (.builtinCall info name args) :=
    .builtinCall hinfo.foldsTo
    (List.forall₂_same.mpr fun e he => (hargs e he).self)
  refine ⟨hself, fun fr hc => ?_⟩
  rw [Check.expr, Check.expr]
  refine Check.agree_open hself ?_
  refine Check.agree_then (fun o => ?_) fun o => ?_
  · cases o with
    | none => exact steady_pure
    | some found => exact (steady_exprs _).bind fun _ => steady_node
  cases o with
  | none => exact Check.agree_pure hself
  | some found =>
    refine (agree_exprs hargs hc).bind (fun _ => steady_node) fun _ _ hes => ?_
    exact Check.agree_node hinfo (Action.agree_builtin hc.options hinfo hes) fun _ _ hi => .builtinCall hi hes

private theorem alike_unary {op : UnaryOp} {operand : Expr} (hinfo : info.Silent) (hoperand : operand.Alike) :
    (Expr.unary info op operand).Alike := by
  have hself : (Expr.unary info op operand).FoldsTo (.unary info op operand) :=
    .unary hinfo.foldsTo hoperand.self
  refine ⟨hself, fun fr hc => ?_⟩
  rw [Check.expr, Check.expr]
  refine Check.agree_open hself ?_
  refine (hoperand.walk fr hc).bind (fun _ => steady_node) fun x y hxy => ?_
  exact Check.agree_node hinfo (Action.agree_unary hinfo hxy) fun _ _ hi => .unary hi hxy

private theorem alike_binary {op : BinaryOp} {lhs rhs : Expr} (hinfo : info.Silent)
    (hlhs : lhs.Alike) (hrhs : rhs.Alike) :
    (Expr.binary info op lhs rhs).Alike := by
  have hself : (Expr.binary info op lhs rhs).FoldsTo (.binary info op lhs rhs) :=
    .binary hinfo.foldsTo hlhs.self hrhs.self
  refine ⟨hself, fun fr hc => ?_⟩
  rw [Check.expr, Check.expr]
  refine Check.agree_open hself ?_
  refine (hlhs.walk fr hc).bind (fun _ => (steady_expr _).bind fun _ => steady_node) fun _ _ hl => ?_
  refine (hrhs.walk fr hc).bind (fun _ => steady_node) fun _ _ hr => ?_
  exact Check.agree_node hinfo (Action.agree_binary hinfo hl hr) fun _ _ hi => .binary hi hl hr

private theorem alike_assignment {target source : Expr} (hinfo : info.Silent) (htarget : target.Alike)
    (hsource : source.Alike) : (Expr.assignment info target source).Alike := by
  have hself := Expr.FoldsTo.assignment hinfo.foldsTo htarget.self hsource.self
  refine ⟨hself, fun fr hc => ?_⟩
  rw [Check.expr, Check.expr]
  refine Check.agree_open hself ?_
  refine (htarget.walk fr hc).bind (fun _ => (steady_expr _).bind fun _ => steady_node) fun _ _ ht => ?_
  refine (hsource.walk fr hc).bind (fun _ => steady_node) fun _ _ hs => ?_
  rw [assignmentRule_eq ht hs]
  exact Check.agree_node hinfo (assignmentRule_silent hinfo).agree fun _ _ hi => .assignment hi ht hs

private theorem alike_structLiteral {name : String} {inits : List (FieldInit Expr)} (hinfo : info.Silent)
    (hinits : ∀ f ∈ inits, f.value.Alike) : (Expr.structLiteral info name inits).Alike := by
  have hself : (Expr.structLiteral info name inits).FoldsTo (.structLiteral info name inits) :=
    .structLiteral hinfo.foldsTo (foldsTo_fields hinits)
  refine ⟨hself, fun fr hc => ?_⟩
  rw [Check.expr, Check.expr]
  refine Check.agree_open hself ?_
  refine Check.agree_then (fun o => ?_) fun o => ?_
  · cases o with
    | none => exact steady_pure
    | some found => exact (steady_fields _).bind fun _ => steady_node
  cases o with
  | none => exact Check.agree_pure hself
  | some found =>
    refine (agree_fields hinits hc).bind (fun _ => steady_node) fun _ _ hfields => ?_
    exact Check.agree_node hinfo (Action.agree_literal hinfo hfields) fun _ _ hi => .structLiteral hi hfields

private theorem alike_letBinding {binding : Holder Variable} {declared : Option TypeExpr}
    {init : Expr} (hinfo : info.Silent)
    (hinit : init.Alike) : (Expr.letBinding info binding declared init).Alike := by
  have hself : (Expr.letBinding info binding declared init).FoldsTo (.letBinding info binding declared init) :=
    .letBinding hinfo.foldsTo hinit.self
  refine ⟨hself, fun fr hc => ?_⟩
  rw [Check.expr, Check.expr]
  refine Check.agree_open hself ?_
  refine (hinit.walk fr hc).bind (fun _ => steady_attempt steady_pure) fun x y hxy => ?_
  rw [letRule_eq hxy]
  refine Check.agree_then (fun o => ?_) fun o => ?_
  · cases o with
    | none => exact steady_pure
    | some v => exact steady_attempt steady_pure
  cases o with
  | none => exact Check.agree_pure (.letBinding hinfo.foldsTo hxy)
  | some v =>
    refine Check.agree_then (fun o => ?_) fun o => ?_
    · cases o with
      | none => exact steady_pure
      | some taken => exact steady_node
    cases o with
    | none => exact Check.agree_pure (.letBinding hinfo.foldsTo hxy)
    | some taken => exact Check.agree_node hinfo (always_resolve hinfo).agree fun _ _ hi => .letBinding hi hxy

private theorem alike_block {entered : Option FrameId} {stmts : List Expr} {tail : Option Expr} (hinfo : info.Silent)
    (hstmts : ∀ e ∈ stmts, e.Alike) (htail : ∀ e ∈ tail, e.Alike) :
    (Expr.block ⟨info, entered, stmts, tail⟩).Alike := by
  have hself : (Expr.block ⟨info, entered, stmts, tail⟩).FoldsTo (.block ⟨info, entered, stmts, tail⟩) :=
    .block hinfo.foldsTo (List.forall₂_same.mpr fun e he => (hstmts e he).self)
      (optionRel_of_forall fun e he => (htail e he).self)
  refine ⟨hself, fun fr hc => ?_⟩
  rw [Check.expr, Check.expr]
  refine Check.agree_open hself ?_
  exact (agree_block hinfo hstmts htail hself hc).map fun _ _ hblock => hblock

private theorem alike_ifElse {cond : Expr} {thenBlock : Block Expr} {other : Option Expr} (hinfo : info.Silent)
    (hcond : cond.Alike) (hthen : (Expr.block thenBlock).Alike) (huntyped : thenBlock.info.type = none)
    (hother : ∀ e ∈ other, e.Alike) : (Expr.ifElse info cond thenBlock other).Alike := by
  have hself := Expr.FoldsTo.ifElse hinfo.foldsTo hcond.self hthen.self
    (optionRel_of_forall fun e he => (hother e he).self)
  refine ⟨hself, fun fr hc => ?_⟩
  rw [Check.expr, Check.expr]
  refine Check.agree_open hself ?_
  refine (hcond.walk fr hc).bind (fun _ => steady_demand fun _ => (steady_block _).bind fun _ =>
    (steady_option _).bind fun _ => steady_node) fun x y hxy => ?_
  rw [expectExpr_eq hxy]
  refine Check.agree_then (fun _ => (steady_block _).bind fun _ => (steady_option _).bind fun _ => steady_node)
    fun _ => ?_
  refine (hthen.block huntyped hc).bind (fun _ => (steady_option _).bind fun _ => steady_node) fun _ _ hb => ?_
  refine (agree_option hother hc).bind (fun _ => steady_node) fun _ _ ho => ?_
  rw [ifRule_eq hb ho]
  exact Check.agree_node hinfo (ifRule_silent hinfo).agree fun _ _ hi => .ifElse hi hxy hb ho

private theorem agree_voidBlock {t : TypeId} {body body' : Block Expr} (hinfo : info.Silent)
    (hbody : body.FoldsTo body') :
    Action.Agree Info.FoldsTo (voidBlockRule info body t) (voidBlockRule info body' t) := by
  unfold voidBlockRule
  rw [expectBlock_eq hbody]
  exact (voidBlockRule_silent hinfo).agree

private theorem alike_whileLoop {cond : Expr} {body : Block Expr} (hinfo : info.Silent) (hcond : cond.Alike)
    (hbody : (Expr.block body).Alike) (huntyped : body.info.type = none) : (Expr.whileLoop info cond body).Alike := by
  have hself := Expr.FoldsTo.whileLoop hinfo.foldsTo hcond.self hbody.self
  refine ⟨hself, fun fr hc => ?_⟩
  rw [Check.expr, Check.expr]
  refine Check.agree_open hself ?_
  refine (hcond.walk fr hc).bind (fun _ => steady_demand fun _ => steady_loops (fun loops => false :: loops)
    fun _ => (steady_block _).bind fun _ => steady_exitLoop fun _ => steady_node) fun x y hxy => ?_
  rw [expectExpr_eq hxy]
  refine Check.agree_then (fun _ => steady_loops (fun loops => false :: loops) fun _ =>
    (steady_block _).bind fun _ => steady_exitLoop fun _ => steady_node) fun _ => ?_
  refine Check.agree_then (fun _ => (steady_block _).bind fun _ => steady_exitLoop fun _ => steady_node) fun _ => ?_
  refine (hbody.block huntyped hc).bind (fun _ => steady_exitLoop fun _ => steady_node) fun b b' hb => ?_
  refine Check.agree_then (fun _ => steady_node) fun _ => ?_
  exact Check.agree_node hinfo (agree_voidBlock hinfo hb) fun _ _ hi => .whileLoop hi hxy hb

private theorem alike_endlessLoop {body : Block Expr} (hinfo : info.Silent) (hbody : (Expr.block body).Alike)
    (huntyped : body.info.type = none) : (Expr.endlessLoop info body).Alike := by
  have hself := Expr.FoldsTo.endlessLoop hinfo.foldsTo hbody.self
  refine ⟨hself, fun fr hc => ?_⟩
  rw [Check.expr, Check.expr]
  refine Check.agree_open hself ?_
  refine Check.agree_then (fun _ => (steady_block _).bind fun _ => steady_exitLoop fun _ => steady_node) fun _ => ?_
  refine (hbody.block huntyped hc).bind (fun _ => steady_exitLoop fun _ => steady_node) fun b b' hb => ?_
  refine Check.agree_then (fun _ => steady_node) fun left => ?_
  exact Check.agree_node hinfo (agree_voidBlock hinfo hb) fun _ _ hi => .endlessLoop hi hb

private theorem alike_jump {make : Info → Expr} {keyword : String} {note : Check Unit} (hinfo : info.Silent)
    (hexpr : ∀ {c fr i}, Check.expr c fr (make i) = jump make keyword note i)
    (hnote : ∀ st, (note.run st).2.stop = st.stop ∧ (note.run st).2.store = st.store)
    (hmake : ∀ {i j}, i.FoldsTo j → (make i).FoldsTo (make j)) : (make info).Alike where
  self := hmake hinfo.foldsTo
  walk fr hc := by
    rw [hexpr, hexpr, jump]
    refine Check.agree_open (hmake hinfo.foldsTo) ?_
    refine Check.agree_then (fun st => (steady_same hnote).bind fun _ => steady_node) fun st => ?_
    refine Check.agree_then (fun _ => steady_node) fun _ => ?_
    exact Check.agree_node hinfo (jumpRule_silent hinfo).agree fun _ _ hi => hmake hi

private theorem alike_leaveFunction {result : Option Expr} (hinfo : info.Silent) (hresult : ∀ e ∈ result, e.Alike) :
    (Expr.leaveFunction info result).Alike := by
  have hrel : Option.Rel Expr.FoldsTo result result := optionRel_of_forall fun e he => (hresult e he).self
  refine ⟨.leaveFunction hinfo.foldsTo hrel, fun {c c'} fr hc => ?_⟩
  have hrule : ∀ {result result'}, Option.Rel Expr.FoldsTo result result' → Check.Agree Expr.FoldsTo
      (do return .leaveFunction (← conclude info (returnRule info c.returns result)) result)
      (do return .leaveFunction (← conclude info (returnRule info c.returns result')) result') := by
    intro result result' ho
    rw [returnRule_eq ho]
    exact Check.agree_node hinfo (returnRule_silent hinfo).agree fun _ _ hi => .leaveFunction hi ho
  rw [Check.expr, Check.expr]
  refine Check.agree_open (.leaveFunction hinfo.foldsTo hrel) ?_
  rw [hc.returns]
  split
  · exact (agree_option hresult hc).bind (fun _ => steady_node) fun _ _ ho => hrule ho
  · exact (Check.agree_pure hrel).bind (fun _ => steady_node) fun _ _ ho => hrule ho

private theorem alike_function {header : Header} {body : Block Expr} (hinfo : info.Silent)
    (hbody : (Expr.block body).Alike)
    (huntyped : body.info.type = none) : (Expr.function info header body).Alike := by
  have hself : (Expr.function info header body).FoldsTo (.function info header body) :=
    .function hinfo.foldsTo hbody.self
  refine ⟨hself, fun fr hc => ?_⟩
  rw [Check.expr, Check.expr]
  refine Check.agree_open hself ?_
  refine Check.agree_then (fun o => ?_) fun o => ?_
  · cases o with
    | none => exact steady_pure
    | some own => exact steady_functionWith.bind fun _ => steady_pure
  cases o with
  | none => exact Check.agree_pure hself
  | some own =>
    refine (agree_functionWith hc.options hinfo hbody huntyped).map fun x y hxy => ?_
    obtain ⟨i, h, body⟩ := x
    obtain ⟨i', h', body'⟩ := y
    obtain ⟨hi, rfl, hb⟩ := hxy
    exact .function hi hb

end

/-- Every tree that was parsed is walked through alike. -/
private theorem Expr.Fresh.alike {e : Expr} {b : Bool} (h : e.Fresh b) : e.Alike := by
  have hi : ∀ span : Span, Info.Silent { span } := fun _ => ⟨rfl, rfl⟩
  induction h with
  | integer => exact alike_integer (hi _)
  | float => exact alike_float (hi _)
  | boolean => exact alike_boolean (hi _)
  | identifier => exact alike_identifier (hi _)
  | member _ ih => exact alike_member (hi _) ih
  | call _ _ ihcallee ihargs => exact alike_call (hi _) ihcallee ihargs
  | builtinCall _ ih => exact alike_builtinCall (hi _) ih
  | unary _ ih => exact alike_unary (hi _) ih
  | binary _ _ ihlhs ihrhs => exact alike_binary (hi _) ihlhs ihrhs
  | assignment _ _ ihtarget ihsource => exact alike_assignment (hi _) ihtarget ihsource
  | structLiteral _ ih => exact alike_structLiteral (hi _) ih
  | letBinding _ ih => exact alike_letBinding (hi _) ih
  | block _ _ ihstmts ihtail => exact alike_block (hi _) ihstmts ihtail
  | ifElse _ hthen _ ihcond ihthen ihother => exact alike_ifElse (hi _) ihcond ihthen hthen.untyped ihother
  | whileLoop _ hbody ihcond ihbody => exact alike_whileLoop (hi _) ihcond ihbody hbody.untyped
  | endlessLoop hbody ih => exact alike_endlessLoop (hi _) ih hbody.untyped
  | leaveLoop => exact alike_jump (hi _) expr_leaveLoop (fun _ => ⟨rfl, rfl⟩) .leaveLoop
  | nextRound => exact alike_jump (hi _) expr_nextRound (fun _ => ⟨rfl, rfl⟩) .nextRound
  | leaveFunction _ ih => exact alike_leaveFunction (hi _) ih
  | function _ _ hbody ih => exact alike_function (hi _) ih hbody.untyped

/-! ### Modules -/

/-- A declaration, and the same declaration with more values. -/
inductive Decl.FoldsTo : Decl → Decl → Prop where
  | struct {d : StructDecl} : FoldsTo (.struct d) (.struct d)
  | function {i j : Info} {header : Header} {body body' : Block Expr} (hi : i.FoldsTo j) (hbody : body.FoldsTo body') :
      FoldsTo (.function ⟨i, header, body⟩) (.function ⟨j, header, body'⟩)

/-- A module, and the same module with more values: the same names, frames, types and exports. -/
structure Module.FoldsTo (m m' : Module) : Prop where
  file : m'.file = m.file
  store : m'.store = m.store
  decls : List.Forall₂ Decl.FoldsTo m.decls m'.decls

/-- A compiled file, and the same with more values. -/
structure CompiledUnit.FoldsTo (u u' : CompiledUnit) : Prop where
  file : u'.file = u.file
  errors : u'.errors = u.errors
  module : Option.Rel Module.FoldsTo u.module u'.module

private theorem Decl.FoldsTo.rfl_of_fresh {d : Decl}
    (h : ∀ f, d = .function f → f.info.Silent ∧ (Expr.block f.body).Alike) : d.FoldsTo d := by
  cases d with
  | struct d => exact .struct
  | function f => exact .function (h f rfl).1.foldsTo (h f rfl).2.self

/-- What is found on the nodes of a tree is found on those of the tree with more values, location by location. -/
private theorem CompiledUnit.FoldsTo.nodes {u u' : CompiledUnit} (h : u.FoldsTo u') :
    List.Forall₂
      (fun n n' => n.FoldsTo n' ∧ n'.hasLocation = n.hasLocation ∧ n'.place? = n.place?) u.nodes u'.nodes := by
  have hdecls : ∀ {ds ds' : List Decl}, List.Forall₂ Decl.FoldsTo ds ds' →
      List.Forall₂ Expr.FoldsTo (ds.flatMap Decl.nodes) (ds'.flatMap Decl.nodes) := by
    intro ds ds' hds
    induction hds with
    | nil => exact .nil
    | cons hd _ ih =>
      refine List.rel_append ?_ ih
      cases hd with
      | struct => exact .nil
      | function _ hbody => exact foldsTo_nodesBlock _ hbody
  obtain ⟨file, o, errors⟩ := u
  obtain ⟨file', o', errors'⟩ := u'
  have hnodes :
      List.Forall₂ Expr.FoldsTo (CompiledUnit.nodes ⟨file, o, errors⟩) (CompiledUnit.nodes ⟨file', o', errors'⟩) := by
    cases h.module with
    | none => exact .nil
    | some hm => exact List.rel_append (hdecls hm.decls) .nil
  exact hnodes.imp fun _ _ hn => ⟨hn, hn.hasLocation, hn.place⟩

/-! ### Compilations -/

section

variable {options options' : Options} {items items' : List Item} {p q : Progress}

/-- A declaration behind the last phase, and the same with more values. -/
structure Item.FoldsTo (i i' : Item) : Prop where
  decl : i.decl.FoldsTo i'.decl
  failed : i'.failed = i.failed

/-- The last phase at one declaration: if it ends where builtins are computed, it ends where they are not. -/
private theorem bodies_step_foldsTo {item item' : Item} (ho : options.FoldsTo options')
    (hitem : ∀ f, item.decl = .function f → f.info.Silent ∧ (Expr.block f.body).Alike ∧ f.body.info.type = none)
    (h : Phase.bodies.step options' item p = .ok (item', q)) :
    ∃ item₁, Phase.bodies.step options item p = .ok (item₁, q) ∧ item₁.FoldsTo item' := by
  have hself : item.decl.FoldsTo item.decl := .rfl_of_fresh fun f hf => ⟨(hitem f hf).1, (hitem f hf).2.1⟩
  by_cases hskip : p.halted = true ∨ item.failed = true
  · rw [Phase.step_skip hskip] at h ⊢
    cases h
    exact ⟨item, rfl, hself, rfl⟩
  obtain ⟨hhalted, hfailed⟩ : p.halted = false ∧ item.failed = false := by simpa using hskip
  obtain ⟨decl, failed⟩ := item
  obtain rfl : failed = false := hfailed
  cases decl with
  | struct d =>
    simp only [Phase.step, hhalted, Bool.or_self, Bool.false_eq_true, if_false, Phase.apply] at h ⊢
    cases h
    exact ⟨_, rfl, .struct, rfl⟩
  | function f =>
    obtain ⟨hinfo, hbody, huntyped⟩ := hitem f rfl
    have hcontinue : options'.continueOnError = options.continueOnError := by rw [ho.on]
    obtain ⟨r, st, hrun⟩ : ∃ r st, (functionWith options FrameId.module f.info f.header f.body
      fun c frame => Check.block c frame f.body).run { store := p.store } = (r, st) := ⟨_, _, rfl⟩
    obtain ⟨r', st', hrun'⟩ : ∃ r st, (functionWith options' FrameId.module f.info f.header f.body
      fun c frame => Check.block c frame f.body).run { store := p.store } = (r, st) := ⟨_, _, rfl⟩
    have hagree := @agree_functionWith _ _ _ FrameId.module f.header _ ho hinfo hbody huntyped { store := p.store }
    rw [hrun, hrun'] at hagree
    simp only [Phase.step, hhalted, Bool.or_self, Bool.false_eq_true, if_false, Phase.apply, Phase.checkBody,
      check_of_run hrun, check_of_run hrun'] at h ⊢
    rcases hagree with ⟨why, hfault⟩ | ⟨hstate, hi, hheader, hblock⟩
    · have hfault : st'.stop = some (.fault why) := hfault
      rw [hfault] at h
      cases h
    · have hstate : st' = st := hstate
      have hdecl : Decl.FoldsTo (.function ⟨r.1, r.2.1, r.2.2⟩) (.function ⟨r'.1, r'.2.1, r'.2.2⟩) := by
        have hheader : r'.2.1 = r.2.1 := hheader
        rw [hheader]
        exact .function hi hblock
      subst hstate
      cases hstop : st'.stop with
      | none =>
        rw [hstop] at h
        cases h
        exact ⟨_, rfl, hdecl, rfl⟩
      | some why =>
        rw [hstop] at h
        cases why with
        | fault why => cases h
        | refused d =>
          cases h
          refine ⟨⟨.function ⟨r.1, r.2.1, r.2.2⟩, true⟩, ?_, hdecl, rfl⟩
          rw [Progress.refuse_options hcontinue]

private theorem bodies_run_foldsTo (ho : options.FoldsTo options')
    (hitems : ∀ i ∈ items, ∀ f, i.decl = .function f →
      f.info.Silent ∧ (Expr.block f.body).Alike ∧ f.body.info.type = none)
    (h : Phase.bodies.run options' items p = .ok (items', q)) :
    ∃ items₁, Phase.bodies.run options items p = .ok (items₁, q) ∧ List.Forall₂ Item.FoldsTo items₁ items' := by
  induction items generalizing p items' with
  | nil =>
    cases h
    exact ⟨[], rfl, .nil⟩
  | cons item rest ih =>
    obtain ⟨item', rest', q', hstep, hrest, rfl⟩ := Phase.run_cons_inv h
    obtain ⟨item₁, hstep₁, hitem⟩ := bodies_step_foldsTo ho (hitems item List.mem_cons_self) hstep
    obtain ⟨rest₁, hrest₁, hrel⟩ := ih (fun i hi => hitems i (List.mem_cons_of_mem _ hi)) hrest
    refine ⟨item₁ :: rest₁, ?_, .cons hitem hrel⟩
    rw [Phase.run_cons, hstep₁, ok_bind]
    dsimp only
    rw [hrest₁]
    rfl

end

/--
Whether builtins on constants are computed makes no difference to a verdict: the problems and the store are the same,
and so is all that is known about the nodes, but for the values that are found in addition.
-/
theorem compile_foldsTo (file : SourceFile) (o : Options) :
    ∃ u u', file.compile { o with constantFolding := false } = .ok u ∧
      file.compile { o with constantFolding := true } = .ok u' ∧ u.FoldsTo u' ∧
      List.Forall₂
          (fun n n' => n.FoldsTo n' ∧ n'.hasLocation = n.hasLocation ∧ n'.place? = n.place?) u.nodes u'.nodes := by
  have ho : Options.FoldsTo { o with constantFolding := false } { o with constantFolding := true } := ⟨rfl, rfl⟩
  suffices h : ∃ u u', file.compile { o with constantFolding := false } = .ok u ∧
      file.compile { o with constantFolding := true } = .ok u' ∧ u.FoldsTo u' by
    obtain ⟨u, u', hu, hu', h⟩ := h
    exact ⟨u, u', hu, hu', h, h.nodes⟩
  rcases file.declarations_parsed with ⟨decls, hdecls, hparsed⟩ | ⟨d, hrefused⟩
  · obtain ⟨items, p, hprepared, hitems, h⟩ := preparation_ends { o with constantFolding := true } hparsed
    obtain ⟨items', q, hbodies, -⟩ := bodies_end hparsed h
    have hfresh : ∀ i ∈ items, ∀ f, i.decl = .function f →
        f.info.Silent ∧ (Expr.block f.body).Alike ∧ f.body.info.type = none := by
      intro i hi f hf
      have hmem : Decl.function f ∈ decls := by
        rw [← hitems, ← hf]
        exact List.mem_map_of_mem hi
      have hbody := hparsed.body f hmem
      exact ⟨by rw [hparsed.untyped f hmem]; exact ⟨rfl, rfl⟩, hbody.alike, hbody.untyped⟩
    obtain ⟨items₁, hbodies₁, hrel⟩ := bodies_run_foldsTo ho hfresh hbodies
    have hprepared₁ : Phase.runAll { o with constantFolding := false } Phase.preparation (decls.map ({ decl := · }))
        { store := {} } = .ok (items, p) := by
      have hcontinue : Options.continueOnError { o with constantFolding := false } =
          Options.continueOnError { o with constantFolding := true } := rfl
      rw [preparation_options hcontinue]
      exact hprepared
    refine ⟨_, _, file.compile_of_module hdecls (compile_of_prepared hprepared₁ hbodies₁),
      file.compile_of_module hdecls (compile_of_prepared hprepared hbodies), rfl, rfl, .some ⟨rfl, rfl, ?_⟩⟩
    rw [List.forall₂_map_left_iff, List.forall₂_map_right_iff]
    exact hrel.imp fun _ _ hi => hi.decl
  · exact ⟨_, _, file.compile_of_refused _ hrefused, file.compile_of_refused _ hrefused, rfl, rfl, .none⟩

end RainCheck
