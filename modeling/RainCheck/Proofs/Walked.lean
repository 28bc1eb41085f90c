import RainCheck.Proofs.Covering

/-!
# Parts that are walked through

What a walk has done when it goes on behind a part (`Expr.Walked`, `Block.Walked`): every part of it was walked through
before, every action in it gave a result, and the rule of the node said what is written on the node.
-/

namespace RainCheck

open Check RainCheck.Action

/-! ### Steps of a walk -/

section

variable {α β : Type} {st st' st'' : CheckState}

theorem run_bind_of {c : Check α} {f : α → Check β} {x : α} (h : c.run st = (x, st')) :
    (c >>= f).run st = (f x).run st' := by
  change (f (c.run st).1).run (c.run st).2 = _
  rw [h]

theorem run_bind_inv {a : Check α} {f : α → Check β} {y : β} (h : (a >>= f).run st = (y, st'')) :
    ∃ x st', a.run st = (x, st') ∧ (f x).run st' = (y, st'') :=
  ⟨_, _, rfl, h⟩

/-- A walk that goes on behind a part has not ended before it. -/
theorem Check.Steady.opened {a : Check α} {x : α} (h : Steady a) (hrun : a.run st = (x, st'))
    (hstop : st'.stop = none) :
    st.stop = none := by
  have hend := h st
  rw [hrun] at hend
  exact goes_on hend hstop

/-- An action gives a result in a walk that goes on, and changes the store only. -/
structure Action.Gives (a : Action α) (st : CheckState) (x : α) (st' : CheckState) : Prop where
  opened : st.stop = none
  yields : a.Yields st.store x st'.store
  loops : st'.loops = st.loops
  alive : st'.stop = none

theorem attempt_gives {a : Action α} {x : α} (h : (attempt a).run st = (some x, st')) : a.Gives st x st' := by
  cases hstop : st.stop with
  | some why =>
    rw [run_attempt_ended hstop] at h
    cases h
  | none =>
    rw [run_attempt hstop] at h
    split at h
    · rename_i hrun
      cases h
      exact ⟨hstop, hrun, rfl, hstop⟩
    · cases h

/-- An action gave a result, if the walk goes on behind what follows it. -/
theorem attempt_inv {a : Action α} {f : Option α → Check β} {y : β} (h : (attempt a >>= f).run st = (y, st'))
    (hstop : st'.stop = none) (hf : Steady (f none)) :
    ∃ x st₁, (attempt a).run st = (some x, st₁) ∧ (f (some x)).run st₁ = (y, st') := by
  have hstop' : ((attempt a >>= f).run st).2.stop = none := by
    rw [h]
    exact hstop
  obtain ⟨x, st₁, hrun⟩ := attempt_some hstop' hf
  refine ⟨x, st₁, hrun, ?_⟩
  obtain ⟨o, st₂, hrun', hnext⟩ := run_bind_inv h
  rw [hrun] at hrun'
  cases hrun'
  exact hnext

theorem yields_typeOf {i : Info} {t : TypeId} {s s' : Store} : (typeOf i).Yields s t s' ↔ i.type = some t ∧ s = s' := by
  unfold typeOf
  rw [yields_lift]
  cases i.type <;> simp [unwrap]

/-- What is written on a node is what its rule says, with a note whether the type is a reference. -/
theorem conclude_inv {info i : Info} {rule : Action Info} (h : (conclude info rule).run st = (i, st'))
    (hstop : st'.stop = none) : ∃ j b, rule.Gives st j st' ∧ i = { j with reference := b } := by
  obtain ⟨i', st₁, hrun, hreturn⟩ := attempt_inv h hstop steady_pure
  cases hreturn
  obtain ⟨hopen, hyields, hloops, halive⟩ := attempt_gives hrun
  obtain ⟨j, s, hrule, hsettle⟩ := yields_bind.mp hyields
  unfold settle at hsettle
  simp only [yields_bind, yields_typeOf, yields_fromTypes, yields_pure] at hsettle
  obtain ⟨_, _, ⟨-, rfl⟩, b, _, ⟨-, rfl⟩, rfl, rfl⟩ := hsettle
  exact ⟨j, b, ⟨hopen, hrule, hloops, halive⟩, rfl⟩

/-- The walk goes on in front of a rule behind which it goes on. -/
theorem conclude_opened {info i : Info} {rule : Action Info} (h : (conclude info rule).run st = (i, st'))
    (hstop : st'.stop = none) : st.stop = none := by
  obtain ⟨j, b, hgives, -⟩ := conclude_inv h hstop
  exact hgives.opened

/-- A demand that the walk goes on behind is met. -/
theorem demand_inv {a : Action Unit} (h : (demand a).run st = ((), st')) (hstop : st'.stop = none) :
    a.Gives st () st' := by
  obtain ⟨_, st₁, hrun, hreturn⟩ := attempt_inv h hstop steady_pure
  cases hreturn
  exact attempt_gives hrun

end

/-! ### Expressions and blocks -/

/-- The rule of a block that stands where nothing is expected of it. -/
def Action.voidBlockRule (info : Info) (body : Block Expr) (type : TypeId) : Action Info := do
  expectBlock body TypeId.void
  return info.resolve type false false

/-- The rule of a function, whose body has to fit what the function returns. -/
def Action.functionRule (info : Info) (body : Block Expr) (entry : Entry) : Action Info := do
  expectBlock body entry.returns
  return info.resolve entry.signature false false

/-- A block that is walked through. -/
inductive Block.Walked (c : Context) (fr : FrameId) (st : CheckState) :
    Block Expr → Block Expr → CheckState → Prop where
  | block {info i : Info} {entered : Option FrameId} {inner : FrameId} {stmts stmts' : List Expr}
      {tail tail' : Option Expr} {st₁ st₂ st₃ st' : CheckState}
      (hnest : (attempt (nest fr)).run st = (some inner, st₁))
      (hstmts : (Check.exprs c inner stmts).run st₁ = (stmts', st₂))
      (htail : (Check.option c inner tail).run st₂ = (tail', st₃))
      (hi : (conclude info (blockRule info stmts' tail')).run st₃ = (i, st')) :
      Walked c fr st ⟨info, entered, stmts, tail⟩ ⟨i, some inner, stmts', tail'⟩ st'

/-- An expression that is walked through, in a frame and from a state on. -/
inductive Expr.Walked (c : Context) (fr : FrameId) (st : CheckState) : Expr → Expr → CheckState → Prop where
  | integer {info i : Info} {n : Int32} {st' : CheckState}
      (hi : (conclude info (return info.fold TypeId.i32 (.i32 n))).run st = (i, st')) :
      Walked c fr st (.integer info n) (.integer i n) st'
  | float {info i : Info} {x : Float} {st' : CheckState}
      (hi : (conclude info (return info.fold TypeId.f64 (.f64 x))).run st = (i, st')) :
      Walked c fr st (.float info x) (.float i x) st'
  | boolean {info i : Info} {b : Bool} {st' : CheckState}
      (hi : (conclude info (return info.fold TypeId.bool (.bool b))).run st = (i, st')) :
      Walked c fr st (.boolean info b) (.boolean i b) st'
  | identifier {info i found : Info} {name : String} {binding : Option Variable} {v : Variable} {st₁ st' : CheckState}
      (hrule : (attempt (identifierRule fr info name)).run st = (some (v, found), st₁))
      (hi : (conclude info (return found)).run st₁ = (i, st')) :
      Walked c fr st (.identifier info name binding) (.identifier i name (some v)) st'
  | member {info i found : Info} {base base' : Expr} {name : String} {nameSpan : Span} {index index' : Nat}
      {st₁ st₂ st' : CheckState} (hbase : (Check.expr c fr base).run st = (base', st₁))
      (hrule : (attempt (memberRule info base' name nameSpan)).run st₁ = (some (index', found), st₂))
      (hi : (conclude info (return found)).run st₂ = (i, st')) :
      Walked c fr st (.member info base name nameSpan index) (.member i base' name nameSpan index') st'
  | call {info i : Info} {callee callee' : Expr} {args args' : List Expr} {st₁ st₂ st' : CheckState}
      (hcallee : (Check.expr c fr callee).run st = (callee', st₁))
      (hargs : (Check.exprs c fr args).run st₁ = (args', st₂))
      (hi : (conclude info (callRule info callee' args')).run st₂ = (i, st')) :
      Walked c fr st (.call info callee args) (.call i callee' args') st'
  | builtinCall {info i : Info} {name : String} {b : Builtin} {args args' : List Expr} {st₁ st₂ st' : CheckState}
      (hfind : (attempt (findBuiltin info name)).run st = (some b, st₁))
      (hargs : (Check.exprs c fr args).run st₁ = (args', st₂))
      (hi : (conclude info (builtinRule c.options info b args')).run st₂ = (i, st')) :
      Walked c fr st (.builtinCall info name args) (.builtinCall i name args') st'
  | unary {info i : Info} {op : UnaryOp} {operand operand' : Expr} {st₁ st' : CheckState}
      (hoperand : (Check.expr c fr operand).run st = (operand', st₁))
      (hi : (conclude info (unaryRule info op operand')).run st₁ = (i, st')) :
      Walked c fr st (.unary info op operand) (.unary i op operand') st'
  | binary {info i : Info} {op : BinaryOp} {lhs lhs' rhs rhs' : Expr} {st₁ st₂ st' : CheckState}
      (hlhs : (Check.expr c fr lhs).run st = (lhs', st₁)) (hrhs : (Check.expr c fr rhs).run st₁ = (rhs', st₂))
      (hi : (conclude info (binaryRule info op lhs' rhs')).run st₂ = (i, st')) :
      Walked c fr st (.binary info op lhs rhs) (.binary i op lhs' rhs') st'
  | assignment {info i : Info} {target target' source source' : Expr} {st₁ st₂ st' : CheckState}
      (htarget : (Check.expr c fr target).run st = (target', st₁))
      (hsource : (Check.expr c fr source).run st₁ = (source', st₂))
      (hi : (conclude info (assignmentRule info target' source')).run st₂ = (i, st')) :
      Walked c fr st (.assignment info target source) (.assignment i target' source') st'
  | structLiteral {info i : Info} {name owner : String} {type : TypeId} {declared : List (String × TypeId)}
      {inits inits' : List (FieldInit Expr)} {st₁ st₂ st' : CheckState}
      (hstruct : (attempt (literalStruct fr info name)).run st = (some (type, owner, declared), st₁))
      (hinits : (Check.fields c fr owner declared [] inits).run st₁ = (inits', st₂))
      (hi : (conclude info (literalRule info type owner declared inits')).run st₂ = (i, st')) :
      Walked c fr st (.structLiteral info name inits) (.structLiteral i name inits') st'
  | letBinding {info i : Info} {binding held : Holder Variable} {declared : Option TypeExpr} {init init' : Expr}
      {v v' : Variable} {st₁ st₂ st₃ st' : CheckState} (hinit : (Check.expr c fr init).run st = (init', st₁))
      (hrule : (attempt (letRule fr binding declared init')).run st₁ = (some v, st₂))
      (hdeclare : (attempt (do declare fr v; lift (binding.map fun _ => v).take)).run st₂ = (some (v', held), st₃))
      (hi : (conclude info (return info.resolve TypeId.void false false)).run st₃ = (i, st')) :
      Walked c fr st (.letBinding info binding declared init) (.letBinding i (.borrowed v') declared init') st'
  | block {b b' : Block Expr} {st' : CheckState} (hblock : (Check.block c fr b).run st = (b', st')) :
      Walked c fr st (.block b) (.block b') st'
  | ifElse {info i : Info} {cond cond' : Expr} {thenBlock then' : Block Expr} {other other' : Option Expr}
      {st₁ st₂ st₃ st₄ st' : CheckState} (hcond : (Check.expr c fr cond).run st = (cond', st₁))
      (hbool : (demand (expectExpr cond' TypeId.bool)).run st₁ = ((), st₂))
      (hthen : (Check.block c fr thenBlock).run st₂ = (then', st₃))
      (hother : (Check.option c fr other).run st₃ = (other', st₄))
      (hi : (conclude info (ifRule info then' other')).run st₄ = (i, st')) :
      Walked c fr st (.ifElse info cond thenBlock other) (.ifElse i cond' then' other') st'
  | whileLoop {info i : Info} {cond cond' : Expr} {body body' : Block Expr} {st₁ st₂ st₃ st' : CheckState}
      (hcond : (Check.expr c fr cond).run st = (cond', st₁))
      (hbool : (demand (expectExpr cond' TypeId.bool)).run st₁ = ((), st₂))
      (hbody : (Check.block c fr body).run (enterLoop.run st₂).2 = (body', st₃))
      (hi : (conclude info (voidBlockRule info body' TypeId.void)).run (exitLoop.run st₃).2 = (i, st')) :
      Walked c fr st (.whileLoop info cond body) (.whileLoop i cond' body') st'
  | endlessLoop {info i : Info} {body body' : Block Expr} {st₁ st' : CheckState}
      (hbody : (Check.block c fr body).run (enterLoop.run st).2 = (body', st₁))
      (hi : (conclude info (voidBlockRule info body' (if (exitLoop.run st₁).1 then TypeId.void else TypeId.never))).run
        (exitLoop.run st₁).2 = (i, st')) :
      Walked c fr st (.endlessLoop info body) (.endlessLoop i body') st'
  | leaveLoop {info i : Info} {st' : CheckState}
      (hi : (conclude info (jumpRule info "break" (!st.loops.isEmpty))).run (markLeft.run st).2 = (i, st')) :
      Walked c fr st (.leaveLoop info) (.leaveLoop i) st'
  | nextRound {info i : Info} {st' : CheckState}
      (hi : (conclude info (jumpRule info "continue" (!st.loops.isEmpty))).run st = (i, st')) :
      Walked c fr st (.nextRound info) (.nextRound i) st'
  | leaveFunction {info i : Info} {result result' : Option Expr} {r : TypeId} {st₁ st' : CheckState}
      (hreturns : c.returns = some r) (hresult : (Check.option c fr result).run st = (result', st₁))
      (hi : (conclude info (returnRule info (some r) result')).run st₁ = (i, st')) :
      Walked c fr st (.leaveFunction info result) (.leaveFunction i result') st'
  | function {info i : Info} {header : Header} {body body' : Block Expr} {own : FrameId} {entry : Entry}
      {params : List Param} {st₁ st₂ st₃ st₄ st' : CheckState}
      (hnested : (attempt (enterNested fr header)).run st = (some own, st₁))
      (henter : (attempt (enterFunction own header)).run st₁ = (some entry, st₂))
      (hparams : (bindParams entry.frame header.params entry.params).run st₂ = (params, st₃))
      (hbody : (Check.block ⟨c.options, some entry.returns⟩ entry.frame body).run
        { st₃ with loops := [] } = (body', st₄))
      (hi : (conclude info (functionRule info body' entry)).run { st₄ with loops := st₃.loops } = (i, st')) :
      Walked c fr st (.function info header body) (.function i { header with params } body') st'

section

variable {c : Context} {fr : FrameId} {st st' : CheckState}

/--
A function is not entered, or its body is walked through in a frame with its parameters, outside of all loops.
-/
theorem functionWith_run {options : Options} {own : FrameId} {info i : Info} {header header' : Header}
    {body body' : Block Expr} (huntyped : info.type = none)
    (hrun : (functionWith options own info header body fun c frame => Check.block c frame body).run st =
      ((i, header', body'), st')) :
    ((attempt (enterFunction own header)).run st = (none, st') ∧ i = info ∧ header' = header ∧ body' = body) ∨
    ∃ entry params st₁ st₂ st₃, (attempt (enterFunction own header)).run st = (some entry, st₁) ∧
      (bindParams entry.frame header.params entry.params).run st₁ = (params, st₂) ∧
      (Check.block ⟨options, some entry.returns⟩ entry.frame body).run { st₂ with loops := [] } = (body', st₃) ∧
      (conclude info (functionRule info body' entry)).run { st₃ with loops := st₂.loops } = (i, st') ∧
      header' = { header with params } := by
  unfold functionWith at hrun
  simp only [huntyped, Option.isSome_none, Bool.false_eq_true, if_false] at hrun
  obtain ⟨o, st₁, henter, hrun⟩ := run_bind_inv hrun
  cases o with
  | none =>
    cases hrun
    exact .inl ⟨henter, rfl, rfl, rfl⟩
  | some entry =>
    obtain ⟨params, st₂, hparams, hrun⟩ := run_bind_inv hrun
    obtain ⟨_, _, hget, hrun⟩ := run_bind_inv hrun
    cases hget
    obtain ⟨_, _, hmodify, hrun⟩ := run_bind_inv hrun
    cases hmodify
    obtain ⟨body'', st₃, hbody, hrun⟩ := run_bind_inv hrun
    obtain ⟨_, _, hmodify, hrun⟩ := run_bind_inv hrun
    cases hmodify
    obtain ⟨j, st₄, hi, hreturn⟩ := run_bind_inv hrun
    cases hreturn
    exact .inr ⟨entry, params, st₁, st₂, st₃, henter, hparams, hbody, hi, rfl⟩

/-- A function that the walk goes on behind is entered. -/
theorem functionWith_inv {options : Options} {own : FrameId} {info i : Info} {header header' : Header}
    {body body' : Block Expr} (huntyped : info.type = none)
    (hrun : (functionWith options own info header body fun c frame => Check.block c frame body).run st =
      ((i, header', body'), st')) (hstop : st'.stop = none) :
    ∃ entry params st₁ st₂ st₃, (attempt (enterFunction own header)).run st = (some entry, st₁) ∧
      (bindParams entry.frame header.params entry.params).run st₁ = (params, st₂) ∧
      (Check.block ⟨options, some entry.returns⟩ entry.frame body).run { st₂ with loops := [] } = (body', st₃) ∧
      (conclude info (functionRule info body' entry)).run { st₃ with loops := st₂.loops } = (i, st') ∧
      header' = { header with params } := by
  rcases functionWith_run huntyped hrun with ⟨henter, -⟩ | h
  · have halive := attempt_inv (f := pure) henter hstop steady_pure
    obtain ⟨_, _, -, hreturn⟩ := halive
    cases hreturn
  · exact h

/-- What is known about a node is what its rule says, or what was known before. -/
private theorem made_inv {α : Type} {info : Info} {rule : Action Info} {make : Info → α} {x : α}
    (hrun : (do return make (← conclude info rule) : Check α).run st = (x, st')) :
    ∃ i, (conclude info rule).run st = (i, st') ∧ x = make i := by
  obtain ⟨i, _, hi, hreturn⟩ := run_bind_inv hrun
  cases hreturn
  exact ⟨i, hi, rfl⟩

/-- A block that the walk goes on behind is walked through. -/
theorem Block.walked {b b' : Block Expr} (huntyped : b.info.type = none)
    (hrun : (Check.block c fr b).run st = (b', st'))
    (hstop : st'.stop = none) : b.Walked c fr st b' st' := by
  have hopen : st.stop = none := (steady_block b).opened hrun hstop
  obtain ⟨info, entered, stmts, tail⟩ := b
  rw [Check.block, run_open hopen (skip_untyped huntyped)] at hrun
  obtain ⟨inner, st₁, hnest, hrun⟩ := attempt_inv hrun hstop steady_pure
  obtain ⟨stmts', st₂, hstmts, hrun⟩ := run_bind_inv hrun
  obtain ⟨tail', st₃, htail, hrun⟩ := run_bind_inv hrun
  obtain ⟨i, hi, rfl⟩ := made_inv hrun
  exact .block hnest hstmts htail hi

/-- An expression that the walk goes on behind is walked through. -/
theorem Expr.walked {e e' : Expr} (huntyped : e.info.type = none) (hrun : (Check.expr c fr e).run st = (e', st'))
    (hstop : st'.stop = none) : e.Walked c fr st e' st' := by
  have hopen : st.stop = none := (steady_expr e).opened hrun hstop
  rw [Check.expr.eq_def, run_open hopen (by exact skip_untyped huntyped)] at hrun
  cases e with
  | integer info n =>
    obtain ⟨i, hi, rfl⟩ := made_inv hrun
    exact .integer hi
  | float info x =>
    obtain ⟨i, hi, rfl⟩ := made_inv hrun
    exact .float hi
  | boolean info b =>
    obtain ⟨i, hi, rfl⟩ := made_inv hrun
    exact .boolean hi
  | identifier info name binding =>
    obtain ⟨⟨v, found⟩, st₁, hrule, hrun⟩ := attempt_inv hrun hstop steady_pure
    obtain ⟨i, hi, rfl⟩ := made_inv hrun
    exact .identifier hrule hi
  | member info base name nameSpan index =>
    obtain ⟨base', st₁, hbase, hrun⟩ := run_bind_inv hrun
    obtain ⟨⟨position, found⟩, st₂, hrule, hrun⟩ := attempt_inv hrun hstop steady_pure
    obtain ⟨i, hi, rfl⟩ := made_inv hrun
    exact .member hbase hrule hi
  | call info callee args =>
    obtain ⟨callee', st₁, hcallee, hrun⟩ := run_bind_inv hrun
    obtain ⟨args', st₂, hargs, hrun⟩ := run_bind_inv hrun
    obtain ⟨i, hi, rfl⟩ := made_inv hrun
    exact .call hcallee hargs hi
  | builtinCall info name args =>
    obtain ⟨b, st₁, hfind, hrun⟩ := attempt_inv hrun hstop steady_pure
    obtain ⟨args', st₂, hargs, hrun⟩ := run_bind_inv hrun
    obtain ⟨i, hi, rfl⟩ := made_inv hrun
    exact .builtinCall hfind hargs hi
  | unary info op operand =>
    obtain ⟨operand', st₁, hoperand, hrun⟩ := run_bind_inv hrun
    obtain ⟨i, hi, rfl⟩ := made_inv hrun
    exact .unary hoperand hi
  | binary info op lhs rhs =>
    obtain ⟨lhs', st₁, hlhs, hrun⟩ := run_bind_inv hrun
    obtain ⟨rhs', st₂, hrhs, hrun⟩ := run_bind_inv hrun
    obtain ⟨i, hi, rfl⟩ := made_inv hrun
    exact .binary hlhs hrhs hi
  | assignment info target source =>
    obtain ⟨target', st₁, htarget, hrun⟩ := run_bind_inv hrun
    obtain ⟨source', st₂, hsource, hrun⟩ := run_bind_inv hrun
    obtain ⟨i, hi, rfl⟩ := made_inv hrun
    exact .assignment htarget hsource hi
  | structLiteral info name inits =>
    obtain ⟨⟨type, owner, declared⟩, st₁, hstruct, hrun⟩ := attempt_inv hrun hstop steady_pure
    obtain ⟨inits', st₂, hinits, hrun⟩ := run_bind_inv hrun
    obtain ⟨i, hi, rfl⟩ := made_inv hrun
    exact .structLiteral hstruct hinits hi
  | letBinding info binding declared init =>
    obtain ⟨init', st₁, hinit, hrun⟩ := run_bind_inv hrun
    obtain ⟨v, st₂, hrule, hrun⟩ := attempt_inv hrun hstop steady_pure
    obtain ⟨⟨v', held⟩, st₃, hdeclare, hrun⟩ := attempt_inv hrun hstop steady_pure
    obtain ⟨i, hi, rfl⟩ := made_inv hrun
    exact .letBinding hinit hrule hdeclare hi
  | block b =>
    obtain ⟨b', _, hblock, hreturn⟩ := run_bind_inv hrun
    cases hreturn
    exact .block hblock
  | ifElse info cond thenBlock other =>
    obtain ⟨cond', st₁, hcond, hrun⟩ := run_bind_inv hrun
    obtain ⟨_, st₂, hbool, hrun⟩ := run_bind_inv hrun
    obtain ⟨then', st₃, hthen, hrun⟩ := run_bind_inv hrun
    obtain ⟨other', st₄, hother, hrun⟩ := run_bind_inv hrun
    obtain ⟨i, hi, rfl⟩ := made_inv hrun
    exact .ifElse hcond hbool hthen hother hi
  | whileLoop info cond body =>
    obtain ⟨cond', st₁, hcond, hrun⟩ := run_bind_inv hrun
    obtain ⟨_, st₂, hbool, hrun⟩ := run_bind_inv hrun
    obtain ⟨_, _, henter, hrun⟩ := run_bind_inv hrun
    cases henter
    obtain ⟨body', st₃, hbody, hrun⟩ := run_bind_inv hrun
    obtain ⟨_, _, hexit, hrun⟩ := run_bind_inv hrun
    cases hexit
    obtain ⟨i, hi, rfl⟩ := made_inv hrun
    exact .whileLoop hcond hbool hbody hi
  | endlessLoop info body =>
    obtain ⟨_, _, henter, hrun⟩ := run_bind_inv hrun
    cases henter
    obtain ⟨body', st₁, hbody, hrun⟩ := run_bind_inv hrun
    obtain ⟨_, _, hexit, hrun⟩ := run_bind_inv hrun
    cases hexit
    obtain ⟨i, hi, rfl⟩ := made_inv hrun
    exact .endlessLoop hbody hi
  | leaveLoop info =>
    obtain ⟨_, _, hget, hrun⟩ := run_bind_inv hrun
    cases hget
    obtain ⟨_, _, hmark, hrun⟩ := run_bind_inv hrun
    cases hmark
    obtain ⟨i, hi, rfl⟩ := made_inv hrun
    exact .leaveLoop hi
  | nextRound info =>
    obtain ⟨_, _, hget, hrun⟩ := run_bind_inv hrun
    cases hget
    obtain ⟨i, hi, rfl⟩ := made_inv hrun
    exact .nextRound hi
  | leaveFunction info result =>
    cases hreturns : c.returns with
    | none =>
      -- outside of functions nothing can be returned
      rw [hreturns] at hrun
      obtain ⟨_, _, hresult, hrun⟩ := run_bind_inv hrun
      obtain ⟨i, hi, rfl⟩ := made_inv hrun
      obtain ⟨_, _, hgives, -⟩ := conclude_inv hi hstop
      exact absurd hgives.yields yields_refuse
    | some r =>
      rw [hreturns] at hrun
      obtain ⟨result', st₁, hresult, hrun⟩ := run_bind_inv hrun
      obtain ⟨i, hi, rfl⟩ := made_inv hrun
      exact .leaveFunction hreturns hresult hi
  | function info header body =>
    obtain ⟨own, st₁, hnested, hrun⟩ := attempt_inv hrun hstop steady_pure
    obtain ⟨⟨i, header', body'⟩, st₂, hfunction, hreturn⟩ := run_bind_inv hrun
    cases hreturn
    obtain ⟨entry, params, st₃, st₄, st₅, henter, hparams, hbody, hi, rfl⟩ := functionWith_inv huntyped hfunction hstop
    exact .function hnested henter hparams hbody hi

/-! ### Walks that are put together -/

/-- A function is walked through, if it is entered and its body is walked through. -/
theorem functionWith_of {options : Options} {own : FrameId} {info i : Info} {header : Header} {body body' : Block Expr}
    {entry : Entry} {params : List Param} {st₁ st₂ st₃ : CheckState} (huntyped : info.type = none)
    (henter : (attempt (enterFunction own header)).run st = (some entry, st₁))
    (hparams : (bindParams entry.frame header.params entry.params).run st₁ = (params, st₂))
    (hbody : (Check.block ⟨options, some entry.returns⟩ entry.frame body).run { st₂ with loops := [] } = (body', st₃))
    (hi : (conclude info (functionRule info body' entry)).run { st₃ with loops := st₂.loops } = (i, st')) :
    (functionWith options own info header body fun c frame => Check.block c frame body).run st =
      ((i, { header with params }, body'), st') := by
  unfold functionWith
  rw [huntyped, if_neg (by simp), run_bind_of henter]
  dsimp only
  rw [run_bind_of hparams]
  have hget : (get : Check CheckState).run st₂ = (st₂, st₂) := rfl
  have hmodify : ∀ (st : CheckState) (loops : List Bool),
      (modify ({ · with loops }) : Check PUnit).run st = ((), { st with loops }) := fun _ _ => rfl
  rw [run_bind_of hget, run_bind_of (hmodify st₂ []), run_bind_of hbody, run_bind_of (hmodify st₃ st₂.loops)]
  exact run_bind_of hi

theorem Block.Walked.run {b b' : Block Expr} (h : b.Walked c fr st b' st') (huntyped : b.info.type = none)
    (hopen : st.stop = none) : (Check.block c fr b).run st = (b', st') := by
  cases h with
  | block hnest hstmts htail hi =>
    rw [Check.block, run_open hopen (by exact skip_untyped huntyped), run_bind_of hnest]
    dsimp only
    rw [run_bind_of hstmts, run_bind_of htail]
    exact run_bind_of hi

/-- The converse of `Expr.walked`: the walks through the parts make up the walk through the whole. -/
theorem Expr.Walked.run {e e' : Expr} (h : e.Walked c fr st e' st') (huntyped : e.info.type = none)
    (hopen : st.stop = none) : (Check.expr c fr e).run st = (e', st') := by
  have henter : ∀ st, enterLoop.run st = ((), (enterLoop.run st).2) := fun _ => rfl
  have hexit : ∀ st, exitLoop.run st = ((exitLoop.run st).1, (exitLoop.run st).2) := fun _ => rfl
  have hmark : markLeft.run st = ((), (markLeft.run st).2) := rfl
  have hget : (get : Check CheckState).run st = (st, st) := rfl
  cases h with
  | integer hi | float hi | boolean hi =>
    rw [Check.expr, run_open hopen (by exact skip_untyped huntyped)]
    exact run_bind_of hi
  | identifier hrule hi =>
    rw [Check.expr, run_open hopen (by exact skip_untyped huntyped), run_bind_of hrule]
    exact run_bind_of hi
  | member hbase hrule hi =>
    rw [Check.expr, run_open hopen (by exact skip_untyped huntyped), run_bind_of hbase, run_bind_of hrule]
    exact run_bind_of hi
  | call hfirst hsecond hi | binary hfirst hsecond hi | assignment hfirst hsecond hi =>
    rw [Check.expr, run_open hopen (by exact skip_untyped huntyped), run_bind_of hfirst, run_bind_of hsecond]
    exact run_bind_of hi
  | builtinCall hfind hargs hi =>
    rw [Check.expr, run_open hopen (by exact skip_untyped huntyped), run_bind_of hfind]
    dsimp only
    rw [run_bind_of hargs]
    exact run_bind_of hi
  | unary hoperand hi =>
    rw [Check.expr, run_open hopen (by exact skip_untyped huntyped), run_bind_of hoperand]
    exact run_bind_of hi
  | structLiteral hstruct hinits hi =>
    rw [Check.expr, run_open hopen (by exact skip_untyped huntyped), run_bind_of hstruct]
    dsimp only
    rw [run_bind_of hinits]
    exact run_bind_of hi
  | letBinding hinit hrule hdeclare hi =>
    rw [Check.expr, run_open hopen (by exact skip_untyped huntyped), run_bind_of hinit, run_bind_of hrule]
    dsimp only
    rw [run_bind_of hdeclare]
    exact run_bind_of hi
  | block hblock =>
    rw [Check.expr, run_open hopen (by exact skip_untyped huntyped)]
    exact run_bind_of hblock
  | ifElse hcond hbool hthen hother hi =>
    rw [Check.expr, run_open hopen (by exact skip_untyped huntyped), run_bind_of hcond, run_bind_of hbool,
      run_bind_of hthen, run_bind_of hother]
    exact run_bind_of hi
  | whileLoop hcond hbool hbody hi =>
    rw [Check.expr, run_open hopen (by exact skip_untyped huntyped), run_bind_of hcond, run_bind_of hbool,
      run_bind_of (henter _), run_bind_of hbody, run_bind_of (hexit _)]
    exact run_bind_of hi
  | endlessLoop hbody hi =>
    rw [Check.expr, run_open hopen (by exact skip_untyped huntyped), run_bind_of (henter _),
      run_bind_of hbody, run_bind_of (hexit _)]
    exact run_bind_of hi
  | leaveLoop hi =>
    rw [Check.expr, run_open hopen (by exact skip_untyped huntyped), run_bind_of hget,
      run_bind_of hmark]
    exact run_bind_of hi
  | nextRound hi =>
    rw [Check.expr, run_open hopen (by exact skip_untyped huntyped), run_bind_of hget]
    exact run_bind_of hi
  | leaveFunction hreturns hresult hi =>
    rw [Check.expr, run_open hopen (by exact skip_untyped huntyped), hreturns, Option.isSome_some, if_pos rfl,
      run_bind_of hresult]
    exact run_bind_of hi
  | function hnested henter hparams hbody hi =>
    rw [Check.expr, run_open hopen (by exact skip_untyped huntyped), run_bind_of hnested]
    dsimp only
    exact run_bind_of (functionWith_of huntyped henter hparams hbody hi)

end

end RainCheck
