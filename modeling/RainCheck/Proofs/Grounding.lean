import RainCheck.Proofs.Attainable
import RainCheck.Proofs.Phases
import RainCheck.Proofs.Visiting

/-!
# Walks and grounded stores

A walk keeps the store grounded, whatever it finds and however it ends, and about the loops around it notes at most that
the innermost one is left (`Check.Advances`).  So the store is grounded whenever a body is checked.

What is behind a part of a walk is calm (`Visit.Step.resumes`): it keeps the types, and once the
walk has ended it changes nothing.  So if a walk ends inside of a visit, it ends in the same way in
all visits that lead to it.
-/

namespace RainCheck

open Relation (ReflTransGen)

/-! ### Rules of expressions -/

namespace Action

variable {α β : Type} {a : Action α} {f : α → Action β} {info : Info} {fr : FrameId}

/-- An action keeps stores grounded, however it ends. -/
def Grounds (a : Action α) : Prop := ∀ s, s.Grounded → Maintains s a fun _ _ => True

theorem Grounds.bind (h : a.Grounds) (hf : ∀ x, (f x).Grounds) : (a >>= f).Grounds := fun s hs =>
  (h s hs).bind fun x s' hs' _ _ => hf x s' hs'

theorem Reads.grounds (h : a.Reads) : a.Grounds := fun _ hs => (h.maintains hs).mono fun _ _ _ _ => trivial

theorem grounds_pure {x : α} : (pure x : Action α).Grounds := reads_pure.grounds

private theorem grounds_refuse {span : Span} {cause : Cause} :
    (refuse span cause : Action α).Grounds := reads_refuse.grounds

private theorem grounds_fail {g : Fault} : (fail g : Action α).Grounds := reads_fail.grounds

private theorem grounds_get : (get : Action Store).Grounds := reads_get.grounds

theorem grounds_lift {r : Except Fault α} : (lift r).Grounds := reads_lift.grounds

private theorem grounds_fromTypes {read : Types → Except Fault α} : (fromTypes read).Grounds := reads_fromTypes.grounds

private theorem grounds_textOf {t : TypeId} : (textOf t).Grounds := reads_textOf.grounds

/-- A test that may end an action in front of what follows. -/
private theorem grounds_test {c : Prop} [Decidable c] {refusal : Action β}
    (hrefusal : refusal.Grounds) {next : Action β}
    (hnext : next.Grounds) : (if c then refusal else next).Grounds := by
  split
  · exact hrefusal
  · exact hnext

theorem reads_typeOf : (typeOf info).Reads := reads_lift

theorem reads_load {t : TypeId} : (load t).Reads := reads_fromTypes

private theorem grounds_typeOf : (typeOf info).Grounds := reads_typeOf.grounds

private theorem grounds_load {t : TypeId} : (load t).Grounds := reads_load.grounds

private theorem grounds_settle : (settle info).Grounds :=
  grounds_typeOf.bind fun _ => grounds_fromTypes.bind fun _ => grounds_pure

theorem reads_expectType {span : Span} {actual : Option TypeId} {expected : TypeId} :
    (expectType span actual expected).Reads := by
  refine reads_lift.bind fun _ => reads_fromTypes.bind fun _ => ?_
  split
  · exact reads_textOf.bind fun _ => reads_textOf.bind fun _ => reads_refuse
  · exact reads_pure

theorem grounds_expectType {span : Span} {actual : Option TypeId} {expected : TypeId} :
    (expectType span actual expected).Grounds :=
  reads_expectType.grounds

theorem reads_expectAll (es : List Expr) (ts : List TypeId) : (expectAll es ts).Reads := by
  induction es generalizing ts with
  | nil => exact reads_pure
  | cons e es ih =>
    cases ts with
    | nil => exact reads_fail
    | cons t ts => exact reads_expectType.bind fun _ => ih ts

private theorem grounds_complete {span : Span} {t : TypeId} : (complete span t).Grounds := by
  intro s hs
  refine maintains_depthBound fun depth => ?_
  cases depth with
  | zero => exact maintains_fail hs
  | succ depth =>
    rw [completeWithin]
    refine maintains_fromTypes hs fun e _ => ?_
    split
    · exact (maintains_body (attainable_completeWithin depth) hs).mono fun _ _ _ _ => trivial
    · exact (reads_cycleFrom.maintains hs).bind fun _ _ hs' _ _ => maintains_refuse hs'
    · exact maintains_throw hs
    · exact maintains_pure hs trivial

private theorem grounds_identifier {name : String} : (identifierRule fr info name).Grounds := by
  refine grounds_get.bind fun s => grounds_lift.bind fun found => ?_
  cases found with
  | none => exact grounds_refuse
  | some v =>
    have hvariable : (resolveVariable v).Grounds := by
      refine grounds_get.bind fun s => ?_
      split
      · exact Grounds.bind (fun _ hs => maintains_signature hs) fun _ => grounds_pure
      · exact grounds_pure
    exact hvariable.bind fun _ => grounds_get.bind fun _ => grounds_lift.bind fun _ => grounds_pure

private theorem grounds_fieldsOf {t : TypeId} : (fieldsOf t).Grounds := by
  refine grounds_fromTypes.bind fun _ => ?_
  split
  · exact grounds_pure
  · exact grounds_fail

theorem grounds_member {base : Expr} {name : String} {span : Span} : (memberRule info base name span).Grounds := by
  refine grounds_typeOf.bind fun _ => grounds_load.bind fun _ => grounds_fromTypes.bind fun _ => ?_
  split
  · exact grounds_textOf.bind fun _ => grounds_refuse
  · refine grounds_complete.bind fun _ => grounds_fieldsOf.bind fun _ => ?_
    dsimp only
    split
    · exact grounds_lift.bind fun _ => grounds_pure
    · exact grounds_refuse

theorem grounds_call {callee : Expr} {args : List Expr} : (callRule info callee args).Grounds := by
  refine grounds_typeOf.bind fun _ => grounds_fromTypes.bind fun _ => ?_
  split
  · exact grounds_textOf.bind fun _ => grounds_refuse
  · refine grounds_test (grounds_refuse.bind fun _ => ?_) ?_ <;>
      exact (reads_expectAll _ _).grounds.bind fun _ => grounds_pure

theorem grounds_unary {op : UnaryOp} {operand : Expr} : (unaryRule info op operand).Grounds := by
  have hnegation : ∀ op expected takes, (negationRule info op operand expected takes).Grounds := by
    intro op expected takes
    refine grounds_typeOf.bind fun _ => grounds_load.bind fun _ => grounds_test ?_ grounds_pure
    exact grounds_textOf.bind fun _ => grounds_refuse.bind fun _ => grounds_pure
  cases op with
  | negate => exact hnegation _ _ _
  | invert => exact hnegation _ _ _
  | address =>
    refine grounds_typeOf.bind fun _ => grounds_lift.bind fun _ => ?_
    have hreference : ∀ t, (updateTypes (·.reference t)).Grounds := fun _ _ hs =>
      (maintains_reference hs).mono fun _ _ _ _ => trivial
    refine grounds_test (grounds_refuse.bind fun _ => ?_) ?_ <;> exact (hreference _).bind fun _ => grounds_pure

theorem reads_foldOperands {op : BinaryOp} {l r : Info} : (foldOperands op l r).Reads := by
  unfold foldOperands
  split
  · exact reads_lift
  · exact reads_pure

theorem grounds_binary {op : BinaryOp} {lhs rhs : Expr} : (binaryRule info op lhs rhs).Grounds := by
  have hend : ∀ left, (do
      let value ← foldOperands op lhs.info rhs.info
      return operationInfo info left value (lhs.info.compileTime && rhs.info.compileTime)).Grounds := fun _ =>
    reads_foldOperands.grounds.bind fun _ => grounds_pure
  refine grounds_typeOf.bind fun _ => grounds_load.bind fun _ => grounds_typeOf.bind fun _ =>
    grounds_load.bind fun _ => ?_
  dsimp only
  refine grounds_test (grounds_textOf.bind fun _ => grounds_refuse.bind fun _ => ?_) ?_ <;>
    refine grounds_test
      (grounds_textOf.bind fun _ => grounds_textOf.bind fun _ => grounds_refuse.bind fun _ => ?_) ?_ <;>
    exact hend _

theorem reads_expectMutable {target : Expr} : (expectMutable target).Reads := by
  refine reads_lift.bind fun _ => ?_
  split
  · split
    · exact reads_refuse
    · exact reads_pure
  · exact reads_pure

theorem grounds_assignment {target source : Expr} : (assignmentRule info target source).Grounds := by
  refine reads_expectMutable.grounds.bind fun _ => grounds_lift.bind fun _ => ?_
  refine grounds_test (grounds_refuse.bind fun _ => ?_) ?_ <;>
    exact grounds_typeOf.bind fun _ => grounds_load.bind fun _ => grounds_expectType.bind fun _ => grounds_pure

theorem reads_findBuiltin {name : String} : (findBuiltin info name).Reads := by
  unfold findBuiltin
  split
  · exact reads_pure
  · exact reads_refuse

theorem reads_matchSecond {t : TypeId} {args : List Expr} : (matchSecond t args).Reads := by
  unfold matchSecond
  split
  · refine reads_typeOf.bind fun _ => reads_load.bind fun _ => ?_
    split
    · exact reads_textOf.bind fun _ => reads_textOf.bind fun _ => reads_refuse
    · exact reads_pure
  · exact reads_pure

theorem reads_expectFeature {options : Options} {b : Builtin} {t : TypeId} :
    (expectFeature options info b t).Reads := by
  unfold expectFeature
  split
  · split
    · exact reads_refuse
    · exact reads_pure
  · exact reads_pure

theorem reads_foldArguments {options : Options} {b : Builtin} {args : List Expr} :
    (foldArguments options b args).Reads := by
  unfold foldArguments
  split
  · exact reads_lift
  · exact reads_pure

theorem grounds_builtin {options : Options} {b : Builtin} {args : List Expr} :
    (builtinRule options info b args).Grounds := by
  cases args with
  | nil => exact grounds_test (grounds_refuse.bind fun _ => grounds_fail) grounds_fail
  | cons first rest =>
    refine grounds_test (grounds_refuse.bind fun _ => ?_) ?_ <;>
      refine grounds_typeOf.bind fun _ => grounds_load.bind fun t =>
        grounds_test (grounds_textOf.bind fun _ => grounds_refuse.bind fun _ => ?_) ?_ <;>
      exact reads_matchSecond.grounds.bind fun _ => reads_expectFeature.grounds.bind fun _ =>
        reads_foldArguments.grounds.bind fun _ => grounds_pure

theorem grounds_literalStruct {name : String} : (literalStruct fr info name).Grounds := by
  refine grounds_get.bind fun s => grounds_lift.bind fun found => ?_
  cases found with
  | none => exact grounds_refuse
  | some t =>
    refine grounds_fromTypes.bind fun _ => ?_
    split
    · exact grounds_refuse
    · exact grounds_complete.bind fun _ => grounds_fieldsOf.bind fun _ => grounds_pure

theorem reads_field {owner name : String} {declared : List (String × TypeId)} {seen : List String} {span : Span} :
    (fieldRule owner declared seen name span).Reads := by
  unfold fieldRule
  split
  · exact reads_refuse
  · split
    · exact reads_refuse_bind
    · exact reads_lift.bind fun _ => reads_pure

theorem grounds_literal {t : TypeId} {owner : String} {declared : List (String × TypeId)}
    {inits : List (FieldInit Expr)} :
    (literalRule info t owner declared inits).Grounds := by
  unfold literalRule
  split
  · exact grounds_refuse
  · exact grounds_pure

theorem grounds_let {binding : Holder Variable} {declared : Option TypeExpr} {init : Expr} :
    (letRule fr binding declared init).Grounds := by
  refine grounds_lift.bind fun v => ?_
  cases declared with
  | none => exact grounds_typeOf.bind fun _ => grounds_pure
  | some t =>
    have htype : (resolveType fr t).Grounds := fun _ hs => (maintains_type hs).mono fun _ _ _ _ => trivial
    exact htype.bind fun _ => grounds_expectType.bind fun _ => grounds_pure

theorem grounds_declare {v : Variable} : (declare fr v).Grounds := fun _ hs => maintains_declare hs

theorem grounds_nest : (nest fr).Grounds := fun _ hs => maintains_nest hs

theorem grounds_block {stmts : List Expr} {tail : Option Expr} : (blockRule info stmts tail).Grounds := by
  cases tail with
  | none => exact grounds_pure
  | some e => exact grounds_typeOf.bind fun _ => grounds_pure

theorem grounds_if {thenBlock : Block Expr} {other : Option Expr} : (ifRule info thenBlock other).Grounds := by
  cases other with
  | none => exact grounds_expectType.bind fun _ => grounds_pure
  | some e =>
    refine grounds_typeOf.bind fun _ => grounds_typeOf.bind fun _ => ?_
    refine grounds_fromTypes.bind fun _ => grounds_test grounds_pure ?_
    refine grounds_fromTypes.bind fun _ => grounds_test grounds_pure ?_
    exact grounds_expectType.bind fun _ => grounds_pure

private theorem grounds_jump {keyword : String} {inLoop : Bool} : (jumpRule info keyword inLoop).Grounds :=
  grounds_test (grounds_refuse.bind fun _ => grounds_pure) grounds_pure

theorem reads_expectResult {r : TypeId} {result : Option Expr} : (expectResult info r result).Reads := by
  cases result with
  | some e => exact reads_expectType
  | none =>
    unfold expectResult
    dsimp only
    split
    · exact reads_textOf.bind fun _ => reads_textOf.bind fun _ => reads_refuse
    · exact reads_pure

theorem grounds_return {returns : Option TypeId} {result : Option Expr} : (returnRule info returns result).Grounds := by
  cases returns with
  | none => exact grounds_refuse
  | some r => exact reads_expectResult.grounds.bind fun _ => grounds_pure

theorem grounds_enterNested {header : Header} : (enterNested fr header).Grounds := by
  have hregister : (registerFunction fr header).Grounds := fun _ hs => maintains_registerFunction hs
  exact hregister.bind fun _ => grounds_nest.bind fun _ => grounds_declare.bind fun _ => grounds_pure

theorem grounds_enterFunction {header : Header} : (enterFunction fr header).Grounds := by
  refine Grounds.bind (fun _ hs => maintains_signature hs) fun _ => grounds_fromTypes.bind fun _ => ?_
  split
  · exact grounds_nest.bind fun _ => grounds_pure
  · exact grounds_fail

end Action

/-! ### Walks -/

/--
How a walk changes the state, whatever it finds: the store stays grounded, types stay what they are, and the innermost
loop may be left.
-/
structure CheckState.Advances (st st' : CheckState) : Prop where
  stays : st.store.Stays st'.store
  loops : ∃ left, st'.loops = st.loops.modifyHead (· || left)

namespace CheckState.Advances

variable {st st' st'' : CheckState}

theorem of_loops (hstays : st.store.Stays st'.store) (hloops : st'.loops = st.loops) : st.Advances st' := by
  refine ⟨hstays, false, ?_⟩
  rw [hloops]
  cases st.loops with
  | nil => rfl
  | cons left rest => simp

theorem trans (h : st.Advances st') (h' : st'.Advances st'') : st.Advances st'' := by
  obtain ⟨left, hleft⟩ := h.loops
  obtain ⟨left', hleft'⟩ := h'.loops
  refine ⟨h.stays.trans h'.stays, left || left', ?_⟩
  rw [hleft', hleft, List.modifyHead_modifyHead]
  congr 1
  funext b
  exact Bool.or_assoc b left left'

/-- A jump out of the innermost loop that is noted stays noted. -/
theorem leave (h : st.Advances st') (hleave : st.loops.head? = some true) : st'.loops.head? = some true := by
  obtain ⟨left, hloops⟩ := h.loops
  rw [hloops, List.head?_modifyHead, hleave]
  rfl

theorem inside (h : st.Advances st') (hne : st.loops ≠ []) : st'.loops ≠ [] := by
  obtain ⟨left, hloops⟩ := h.loops
  rw [hloops]
  simpa using hne

end CheckState.Advances

namespace Check

variable {α β : Type} {c : Check α} {f : α → Check β}

/-- A part of a walk advances from every state. -/
def Advances (c : Check α) : Prop := ∀ st : CheckState, st.Advances (c.run st).2

theorem Advances.of_run {st st' : CheckState} {x : α} (h : Advances c) (hrun : c.run st = (x, st')) :
    st.Advances st' := by
  have hst := h st
  rwa [hrun] at hst

private theorem advances_pure {x : α} : Advances (pure x) := fun st => .of_loops (.refl st.store) rfl

private theorem Advances.bind (h : Advances c) (hf : ∀ x, Advances (f x)) : Advances (c >>= f) := fun st =>
  (h st).trans (hf (c.run st).1 (c.run st).2)

theorem advances_attempt {a : Action α} (h : a.Grounds) : Advances (attempt a) := by
  intro st
  have hloops : ((attempt a).run st).2.loops = st.loops := by
    simp only [attempt, StateT.run]
    split
    · rfl
    · split <;> rfl
  refine .of_loops (fun hs => ?_) hloops
  cases hstop : st.stop with
  | some why =>
    rw [run_attempt_ended hstop]
    exact ⟨hs, .refl st.store⟩
  | none =>
    rw [run_attempt hstop]
    split
    · rename_i hrun
      obtain ⟨hgrounded, hstay, -⟩ := h st.store hs _ _ hrun
      exact ⟨hgrounded, hstay⟩
    · rename_i hrun
      obtain ⟨hgrounded, hstay, -⟩ := h st.store hs _ _ hrun
      exact ⟨hgrounded, hstay⟩

private theorem advances_found {a : Action α} {f : Option α → Check β} (ha : a.Grounds) (hnone : Advances (f none))
    (hsome : ∀ x, Advances (f (some x))) : Advances (attempt a >>= f) := by
  refine (advances_attempt ha).bind fun found => ?_
  cases found with
  | none => exact hnone
  | some x => exact hsome x

theorem advances_conclude {i : Info} {r : Action Info} (h : r.Grounds) : Advances (conclude i r) :=
  (advances_attempt (h.bind fun _ => Action.grounds_settle)).bind fun _ => advances_pure

private theorem advances_node {i : Info} {r : Action Info} (h : r.Grounds) {m : Info → α} :
    Advances (do return m (← conclude i r)) :=
  (advances_conclude h).bind fun _ => advances_pure

theorem advances_demand {a : Action Unit} (h : a.Grounds) : Advances (demand a) :=
  (advances_attempt h).bind fun _ => advances_pure

/-- A part that may be skipped. -/
private theorem advances_skip {x : α} {p : Bool → Bool} (h : Advances c) :
    Advances (do if p (← stopped) then return x else c) := by
  intro st
  change st.Advances ((if p st.stop.isSome then (pure x : Check α) else c).run st).2
  split
  · exact advances_pure st
  · exact h st

/-- A part that looks at the state. -/
private theorem advances_get {f : CheckState → Check α} (h : ∀ st, Advances (f st)) :
    Advances (get >>= f) := fun st => h st st

/-- The loops around a part that has a loop of its own. -/
theorem drop_loops {st st' : CheckState} (h : (enterLoop.run st).2.Advances st') :
    st.Advances (exitLoop.run st').2 := by
  obtain ⟨left, hleft⟩ := h.loops
  refine .of_loops h.stays ?_
  change st'.loops.drop 1 = st.loops
  rw [hleft]
  rfl

/-- The jumps out of a loop are forgotten behind it. -/
private theorem advances_loop {body : Check α} {next : α → Bool → Check β} (hbody : Advances body)
    (hnext : ∀ x left, Advances (next x left)) :
    Advances (do enterLoop; let x ← body; let left ← exitLoop; next x left) := fun st =>
  (drop_loops (hbody (enterLoop.run st).2)).trans (hnext _ _ _)

private theorem advances_markLeft : Advances markLeft := by
  intro st
  refine ⟨.refl st.store, true, ?_⟩
  change st.loops.modifyHead (fun _ => true) = _
  simp

theorem advances_bindParams (fr : FrameId) (ps : List Param) (ts : List TypeId) : Advances (bindParams fr ps ts) := by
  induction ps generalizing ts with
  | nil => exact advances_pure
  | cons p ps ih =>
    cases ts with
    | nil => exact (advances_demand Action.grounds_fail).bind fun _ => advances_pure
    | cons t ts =>
      refine advances_skip (p := id) ?_
      exact (advances_demand Action.grounds_declare).bind fun _ => (ih ts).bind fun _ => advances_pure

private theorem advances_functionWith {options : Options} {fr : FrameId} {info : Info}
    {header : Header} {body : Block Expr}
    {walk : Context → FrameId → Check (Block Expr)} (hwalk : ∀ c fr, Advances (walk c fr)) :
    Advances (functionWith options fr info header body walk) := by
  unfold functionWith
  split
  · exact advances_pure
  · refine (advances_attempt Action.grounds_enterFunction).bind fun entry => ?_
    cases entry with
    | none => exact advances_pure
    | some entry =>
      refine (advances_bindParams _ _ _).bind fun params st => ?_
      -- the loops around are put aside while the body is walked through
      have hbody := hwalk ⟨options, some entry.returns⟩ entry.frame { st with loops := [] }
      have haround : st.Advances
          { ((walk ⟨options, some entry.returns⟩ entry.frame).run { st with loops := [] }).2 with loops := st.loops } :=
        .of_loops hbody.stays rfl
      have hend := (advances_conclude (i := info) (r := do
          Action.expectBlock
            ((walk ⟨options, some entry.returns⟩ entry.frame).run { st with loops := [] }).1 entry.returns
          return info.resolve entry.signature false false)
        (Action.grounds_expectType.bind fun _ => Action.grounds_pure))
        { ((walk ⟨options, some entry.returns⟩ entry.frame).run { st with loops := [] }).2 with loops := st.loops }
      exact haround.trans hend

mutual

theorem advances_expr (e : Expr) (c : Context) (fr : FrameId) : Advances (expr c fr e) := by
  match e with
  | .integer info n =>
    rw [expr]
    exact advances_skip (advances_node Action.grounds_pure)
  | .float info x =>
    rw [expr]
    exact advances_skip (advances_node Action.grounds_pure)
  | .boolean info b =>
    rw [expr]
    exact advances_skip (advances_node Action.grounds_pure)
  | .identifier info name binding =>
    rw [expr]
    exact advances_skip
      (advances_found Action.grounds_identifier advances_pure fun _ => advances_node Action.grounds_pure)
  | .member info base name nameSpan index =>
    rw [expr]
    refine advances_skip ((advances_expr base c fr).bind fun base => ?_)
    exact advances_found Action.grounds_member advances_pure fun _ => advances_node Action.grounds_pure
  | .call info callee args =>
    rw [expr]
    refine advances_skip ((advances_expr callee c fr).bind fun _ => (advances_exprs args c fr).bind fun _ => ?_)
    exact advances_node Action.grounds_call
  | .builtinCall info name args =>
    rw [expr]
    have hargs := advances_exprs args c fr
    exact advances_skip (advances_found Action.reads_findBuiltin.grounds advances_pure fun _ =>
      hargs.bind fun _ => advances_node Action.grounds_builtin)
  | .unary info op operand =>
    rw [expr]
    exact advances_skip ((advances_expr operand c fr).bind fun _ => advances_node Action.grounds_unary)
  | .binary info op lhs rhs =>
    rw [expr]
    refine advances_skip ((advances_expr lhs c fr).bind fun _ => (advances_expr rhs c fr).bind fun _ => ?_)
    exact advances_node Action.grounds_binary
  | .assignment info target source =>
    rw [expr]
    refine advances_skip ((advances_expr target c fr).bind fun _ => (advances_expr source c fr).bind fun _ => ?_)
    exact advances_node Action.grounds_assignment
  | .structLiteral info name inits =>
    rw [expr]
    have hinits := advances_fields inits c fr
    exact advances_skip (advances_found Action.grounds_literalStruct advances_pure fun _ =>
      (hinits _ _ _).bind fun _ => advances_node Action.grounds_literal)
  | .letBinding info binding declared init =>
    rw [expr]
    refine advances_skip ((advances_expr init c fr).bind fun init => ?_)
    refine advances_found Action.grounds_let advances_pure fun _ => ?_
    exact advances_found (Action.grounds_declare.bind fun _ => Action.grounds_lift) advances_pure fun _ =>
      advances_node Action.grounds_pure
  | .block b =>
    rw [expr]
    exact advances_skip ((advances_block b c fr).bind fun _ => advances_pure)
  | .ifElse info cond thenBlock other =>
    rw [expr]
    refine advances_skip
      ((advances_expr cond c fr).bind fun _ => (advances_demand Action.grounds_expectType).bind fun _ => ?_)
    refine (advances_block thenBlock c fr).bind fun _ => (advances_option other c fr).bind fun _ => ?_
    exact advances_node Action.grounds_if
  | .whileLoop info cond body =>
    rw [expr]
    refine advances_skip
      ((advances_expr cond c fr).bind fun _ => (advances_demand Action.grounds_expectType).bind fun _ => ?_)
    exact advances_loop (advances_block body c fr) fun _ _ =>
      advances_node (Action.grounds_expectType.bind fun _ => Action.grounds_pure)
  | .endlessLoop info body =>
    rw [expr]
    exact advances_skip (advances_loop (advances_block body c fr) fun _ _ =>
      advances_node (Action.grounds_expectType.bind fun _ => Action.grounds_pure))
  | .leaveLoop info =>
    rw [expr]
    exact advances_skip (advances_get fun _ => advances_markLeft.bind fun _ => advances_node Action.grounds_jump)
  | .nextRound info =>
    rw [expr]
    exact advances_skip (advances_get fun _ => advances_node Action.grounds_jump)
  | .leaveFunction info result =>
    have hresult := advances_option result c fr
    rw [expr]
    refine advances_skip ?_
    dsimp only
    split
    · exact hresult.bind fun _ => advances_node Action.grounds_return
    · exact advances_pure.bind fun _ => advances_node Action.grounds_return
  | .function info header body =>
    have hbody := advances_block body
    rw [expr]
    exact advances_skip (advances_found Action.grounds_enterNested advances_pure fun _ =>
      (advances_functionWith hbody).bind fun _ => advances_pure)

theorem advances_option (e : Option Expr) (c : Context) (fr : FrameId) : Advances (option c fr e) := by
  match e with
  | none =>
    rw [option]
    exact advances_pure
  | some e =>
    rw [option]
    exact (advances_expr e c fr).bind fun _ => advances_pure

theorem advances_exprs (es : List Expr) (c : Context) (fr : FrameId) : Advances (exprs c fr es) := by
  match es with
  | [] =>
    rw [exprs]
    exact advances_pure
  | e :: rest =>
    rw [exprs]
    exact (advances_expr e c fr).bind fun _ => (advances_exprs rest c fr).bind fun _ => advances_pure

theorem advances_fields (inits : List (FieldInit Expr)) (c : Context) (fr : FrameId) (owner : String)
    (declared : List (String × TypeId)) (seen : List String) : Advances (fields c fr owner declared seen inits) := by
  match inits with
  | [] =>
    rw [fields]
    exact advances_pure
  | ⟨name, span, value⟩ :: rest =>
    have hvalue := advances_expr value c fr
    have hrest := advances_fields rest c fr owner declared (name :: seen)
    rw [fields]
    refine advances_found Action.reads_field.grounds advances_pure fun _ => hvalue.bind fun _ => ?_
    exact (advances_demand Action.grounds_expectType).bind fun _ => hrest.bind fun _ => advances_pure

theorem advances_block (b : Block Expr) (c : Context) (fr : FrameId) : Advances (block c fr b) := by
  match b with
  | ⟨info, entered, stmts, tail⟩ =>
    have hstmts := advances_exprs stmts c
    have htail := advances_option tail c
    rw [block]
    refine advances_skip (advances_found Action.grounds_nest advances_pure fun inner => ?_)
    exact (hstmts inner).bind fun _ => (htail inner).bind fun _ => advances_node Action.grounds_block

end

/-! ### Behind a part of a walk -/

/-- A piece of a walk that changes nothing once the walk has ended, and keeps the types there are. -/
structure Calm (c : Check α) : Prop where
  steady : Steady c
  stays : ∀ st : CheckState, st.store.Stays (c.run st).2.store

section

variable {a : Action α} {info : Info}

theorem Calm.of_run {st st' : CheckState} {x : α} (h : Calm c) (hrun : c.run st = (x, st')) :
    st.store.Stays st'.store := by
  have hstays := h.stays st
  rwa [hrun] at hstays

private theorem Calm.bind (h : Calm c) (hf : ∀ x, Calm (f x)) : Calm (c >>= f) where
  steady := h.steady.bind fun x => (hf x).steady
  stays st := (h.stays st).trans ((hf _).stays _)

private theorem Advances.calm (h : Advances c) (hsteady : Steady c) : Calm c := ⟨hsteady, fun st => (h st).stays⟩

private theorem calm_pure {x : α} : Calm (pure x) := advances_pure.calm steady_pure

/-- A piece that changes the loops only. -/
private theorem calm_same (h : ∀ st, (c.run st).2.stop = st.stop ∧ (c.run st).2.store = st.store) : Calm c where
  steady := steady_same h
  stays st := by
    rw [(h st).2]
    exact .refl st.store

theorem calm_attempt (h : a.Grounds) : Calm (attempt a) :=
  (advances_attempt h).calm fun st why hstop => by
    rw [run_attempt_ended hstop]
    exact ⟨hstop, rfl⟩

private theorem calm_found {f : Option α → Check β} (h : a.Grounds) (hnone : Calm (f none))
    (hsome : ∀ x, Calm (f (some x))) :
    Calm (attempt a >>= f) := by
  refine (calm_attempt h).bind fun found => ?_
  cases found with
  | none => exact hnone
  | some x => exact hsome x

theorem calm_conclude {rule : Action Info} (h : rule.Grounds) : Calm (conclude info rule) :=
  (advances_conclude h).calm (steady_attempt steady_pure)

private theorem calm_node {rule : Action Info} (h : rule.Grounds) {make : Info → α} :
    Calm (do return make (← conclude info rule)) :=
  (calm_conclude h).bind fun _ => calm_pure

theorem calm_demand {a : Action Unit} (h : a.Grounds) : Calm (demand a) :=
  (advances_demand h).calm (steady_attempt steady_pure)

variable {ctx : Context} {fr : FrameId}

theorem calm_expr (e : Expr) : Calm (expr ctx fr e) := (advances_expr e ctx fr).calm (steady_expr e)

theorem calm_option (e : Option Expr) : Calm (option ctx fr e) := (advances_option e ctx fr).calm (steady_option e)

theorem calm_exprs (es : List Expr) : Calm (exprs ctx fr es) := (advances_exprs es ctx fr).calm (steady_exprs es)

theorem calm_fields {owner : String} {declared : List (String × TypeId)} {seen : List String}
    (inits : List (FieldInit Expr)) : Calm (fields ctx fr owner declared seen inits) :=
  (advances_fields inits ctx fr owner declared seen).calm (steady_fields inits)

theorem calm_block (b : Block Expr) : Calm (block ctx fr b) := (advances_block b ctx fr).calm (steady_block b)

theorem calm_bindParams {params : List Param} {types : List TypeId} : Calm (bindParams fr params types) :=
  (advances_bindParams fr params types).calm steady_bindParams

end

section

variable {st st' st'' : CheckState}

/-- A walk goes on calmly from a state to another one. -/
def Resumes (st st' : CheckState) : Prop := ∃ (γ : Type) (rest : Check γ), Calm rest ∧ (rest.run st).2 = st'

private theorem Resumes.ended (h : Resumes st st') :
    ∀ why, st.stop = some why → st'.stop = some why ∧ st'.store = st.store := by
  intro why hstop
  obtain ⟨_, rest, hcalm, rfl⟩ := h
  exact hcalm.steady st why hstop

theorem Resumes.stays (h : Resumes st st') : st.store.Stays st'.store := by
  obtain ⟨_, rest, hcalm, rfl⟩ := h
  exact hcalm.stays st

private theorem Resumes.step (h : Resumes st st') (hc : Calm c) : Resumes st (c.run st').2 := by
  obtain ⟨_, rest, hcalm, rfl⟩ := h
  exact ⟨_, rest >>= fun _ => c, hcalm.bind fun _ => hc, rfl⟩

/-- A walk goes on calmly from the end of one of its parts. -/
def Behind (c : Check α) (st st' : CheckState) : Prop := Resumes st' (c.run st).2

private theorem Behind.bind (h : Behind c st st') (hf : ∀ x, Calm (f x)) : Behind (c >>= f) st st' :=
  h.step (hf (c.run st).1)

private theorem behind_first (hf : ∀ x, Calm (f x)) : Behind (c >>= f) st (c.run st).2 := ⟨β, f (c.run st).1, hf _, rfl⟩

private theorem behind_later {x : α} (hrun : c.run st = (x, st')) (h : Behind (f x) st' st'') :
    Behind (c >>= f) st st'' := by
  change Resumes st'' ((f (c.run st).1).run (c.run st).2).2
  rw [hrun]
  exact h

private theorem behind_untyped {x : α} {info : Info} (hopen : st.stop = none) (huntyped : info.type = none)
    (h : Behind c st st') : Behind (do if (← stopped) || info.type.isSome then return x else c) st st' := by
  unfold Behind
  rw [run_open hopen (skip_untyped huntyped)]
  exact h

/-- The end of a function, behind its body. -/
theorem behind_body {options : Options} {own : FrameId} {info : Info} {header : Header} {body : Block Expr} {v : Visit}
    (huntyped : info.type = none) (h : v.Begins options own header body st) :
    Behind (functionWith options own info header body fun c frame => block c frame body) st v.after := by
  cases h with
  | body henter hbind =>
    unfold functionWith
    rw [huntyped]
    refine behind_later henter (behind_later hbind (behind_later rfl (behind_later rfl ?_)))
    refine behind_first fun _ => (calm_same fun _ => ⟨rfl, rfl⟩).bind fun _ => ?_
    exact calm_node (Action.grounds_expectType.bind fun _ => Action.grounds_pure)

end

end Check

open Check in
/-- A function contains the walk through its body. -/
theorem Visit.Begins.contained {v : Visit} {options : Options} {own : FrameId} {header : Header} {body : Block Expr}
    {st : CheckState} {info : Info} (huntyped : info.type = none) (h : v.Begins options own header body st) :
    ∀ why, v.after.stop = some why →
      ((functionWith options own info header body fun c frame => Check.block c frame body).run st).2.stop = some why ∧
      ((functionWith options own info header body fun c frame => Check.block c frame body).run st).2.store =
        v.after.store :=
  Resumes.ended (behind_body huntyped h)

open Check in
/-- A visit goes on calmly behind each visit that it makes. -/
theorem Visit.Step.resumes {v w : Visit} (h : v.Step w) : Resumes w.after v.after := by
  -- in front of the part there is what the step says was walked through
  cases h with
  | memberBase hopen huntyped =>
    change Behind (Check.expr _ _ _) _ _
    rw [Check.expr]
    refine behind_untyped hopen huntyped (behind_first fun _ => ?_)
    exact calm_found Action.grounds_member calm_pure fun _ => calm_node Action.grounds_pure
  | callee hopen huntyped =>
    change Behind (Check.expr _ _ _) _ _
    rw [Check.expr]
    refine behind_untyped hopen huntyped (behind_first fun _ => ?_)
    exact (calm_exprs _).bind fun _ => calm_node Action.grounds_call
  | arguments hopen huntyped hcallee =>
    change Behind (Check.expr _ _ _) _ _
    rw [Check.expr]
    refine behind_untyped hopen huntyped (behind_later hcallee (behind_first fun _ => ?_))
    exact calm_node Action.grounds_call
  | builtinArguments hopen huntyped hfind =>
    change Behind (Check.expr _ _ _) _ _
    rw [Check.expr]
    refine behind_untyped hopen huntyped (behind_later hfind (behind_first fun _ => ?_))
    exact calm_node Action.grounds_builtin
  | operand hopen huntyped =>
    change Behind (Check.expr _ _ _) _ _
    rw [Check.expr]
    exact behind_untyped hopen huntyped (behind_first fun _ => calm_node Action.grounds_unary)
  | left hopen huntyped =>
    change Behind (Check.expr _ _ _) _ _
    rw [Check.expr]
    refine behind_untyped hopen huntyped (behind_first fun _ => ?_)
    exact (calm_expr _).bind fun _ => calm_node Action.grounds_binary
  | right hopen huntyped hleft =>
    change Behind (Check.expr _ _ _) _ _
    rw [Check.expr]
    refine behind_untyped hopen huntyped (behind_later hleft (behind_first fun _ => ?_))
    exact calm_node Action.grounds_binary
  | target hopen huntyped =>
    change Behind (Check.expr _ _ _) _ _
    rw [Check.expr]
    refine behind_untyped hopen huntyped (behind_first fun _ => ?_)
    exact (calm_expr _).bind fun _ => calm_node Action.grounds_assignment
  | source hopen huntyped htarget =>
    change Behind (Check.expr _ _ _) _ _
    rw [Check.expr]
    refine behind_untyped hopen huntyped (behind_later htarget (behind_first fun _ => ?_))
    exact calm_node Action.grounds_assignment
  | literalFields hopen huntyped hstruct =>
    change Behind (Check.expr _ _ _) _ _
    rw [Check.expr]
    refine behind_untyped hopen huntyped (behind_later hstruct (behind_first fun _ => ?_))
    exact calm_node Action.grounds_literal
  | initial hopen huntyped =>
    change Behind (Check.expr _ _ _) _ _
    rw [Check.expr]
    refine behind_untyped hopen huntyped (behind_first fun _ => ?_)
    refine calm_found Action.grounds_let calm_pure fun _ => ?_
    exact calm_found (Action.grounds_declare.bind fun _ => Action.grounds_lift) calm_pure fun _ =>
      calm_node Action.grounds_pure
  | block hopen huntyped =>
    change Behind (Check.expr _ _ _) _ _
    rw [Check.expr]
    exact behind_untyped hopen huntyped (behind_first fun _ => calm_pure)
  | ifCondition hopen huntyped =>
    change Behind (Check.expr _ _ _) _ _
    rw [Check.expr]
    refine behind_untyped hopen huntyped (behind_first fun _ => ?_)
    refine (calm_demand Action.grounds_expectType).bind fun _ => (calm_block _).bind fun _ => ?_
    exact (calm_option _).bind fun _ => calm_node Action.grounds_if
  | thenBlock hopen huntyped hcond hbool =>
    change Behind (Check.expr _ _ _) _ _
    rw [Check.expr]
    refine behind_untyped hopen huntyped (behind_later hcond (behind_later hbool (behind_first fun _ => ?_)))
    exact (calm_option _).bind fun _ => calm_node Action.grounds_if
  | elseBranch hopen huntyped hcond hbool hthen =>
    change Behind (Check.expr _ _ _) _ _
    rw [Check.expr]
    refine behind_untyped hopen huntyped (behind_later hcond (behind_later hbool ?_))
    exact behind_later hthen (behind_first fun _ => calm_node Action.grounds_if)
  | whileCondition hopen huntyped =>
    change Behind (Check.expr _ _ _) _ _
    rw [Check.expr]
    refine behind_untyped hopen huntyped (behind_first fun _ => ?_)
    refine (calm_demand Action.grounds_expectType).bind fun _ => (calm_same fun _ => ⟨rfl, rfl⟩).bind fun _ => ?_
    refine (calm_block _).bind fun _ => (calm_same fun _ => ⟨rfl, rfl⟩).bind fun _ => ?_
    exact calm_node (Action.grounds_expectType.bind fun _ => Action.grounds_pure)
  | whileBody hopen huntyped hcond hbool =>
    change Behind (Check.expr _ _ _) _ _
    rw [Check.expr]
    refine behind_untyped hopen huntyped (behind_later hcond (behind_later hbool (behind_later rfl ?_)))
    refine behind_first fun _ => (calm_same fun _ => ⟨rfl, rfl⟩).bind fun _ => ?_
    exact calm_node (Action.grounds_expectType.bind fun _ => Action.grounds_pure)
  | endlessBody hopen huntyped =>
    change Behind (Check.expr _ _ _) _ _
    rw [Check.expr]
    refine behind_untyped hopen huntyped (behind_later rfl ?_)
    refine behind_first fun _ => (calm_same fun _ => ⟨rfl, rfl⟩).bind fun _ => ?_
    exact calm_node (Action.grounds_expectType.bind fun _ => Action.grounds_pure)
  | result hopen huntyped hreturns =>
    change Behind (Check.expr _ _ _) _ _
    rw [Check.expr]
    refine behind_untyped hopen huntyped ?_
    rw [if_pos hreturns]
    exact behind_first fun _ => calm_node Action.grounds_return
  | nested hopen huntyped hnested hbegins =>
    change Behind (Check.expr _ _ _) _ _
    rw [Check.expr]
    refine behind_untyped hopen huntyped (behind_later hnested ?_)
    exact (behind_body huntyped hbegins).bind fun _ => calm_pure
  | present =>
    change Behind (Check.option _ _ _) _ _
    rw [Check.option]
    exact behind_first fun _ => calm_pure
  | head =>
    change Behind (Check.exprs _ _ _) _ _
    rw [Check.exprs]
    exact behind_first fun _ => (calm_exprs _).bind fun _ => calm_pure
  | tail hhead =>
    change Behind (Check.exprs _ _ _) _ _
    rw [Check.exprs]
    exact behind_later hhead (behind_first fun _ => calm_pure)
  | fieldValue hfield =>
    change Behind (Check.fields _ _ _ _ _ _) _ _
    rw [Check.fields]
    refine behind_later hfield (behind_first fun _ => (calm_demand Action.grounds_expectType).bind fun _ => ?_)
    exact (calm_fields _).bind fun _ => calm_pure
  | laterFields hfield hvalue hfits =>
    change Behind (Check.fields _ _ _ _ _ _) _ _
    rw [Check.fields]
    exact behind_later hfield (behind_later hvalue (behind_later hfits (behind_first fun _ => calm_pure)))
  | statements hopen huntyped hnest =>
    change Behind (Check.block _ _ _) _ _
    rw [Check.block]
    refine behind_untyped hopen huntyped (behind_later hnest (behind_first fun _ => ?_))
    exact (calm_option _).bind fun _ => calm_node Action.grounds_block
  | blockTail hopen huntyped hnest hstmts =>
    change Behind (Check.block _ _ _) _ _
    rw [Check.block]
    refine behind_untyped hopen huntyped (behind_later hnest (behind_later hstmts ?_))
    exact behind_first fun _ => calm_node Action.grounds_block

/-- If the walk ends inside of a visit, the visit that led to it ends in the same way, and with the same store. -/
theorem Visit.Step.ended {v w : Visit} (h : v.Step w) :
    ∀ why, w.after.stop = some why → v.after.stop = some why ∧ v.after.store = w.after.store :=
  h.resumes.ended

/-- From the end of a visit, the store stays until the end of the visit that led to it. -/
theorem Visit.Step.stays {v w : Visit} (h : v.Step w) : w.after.store.Stays v.after.store := h.resumes.stays

/-- If the walk ends inside of a visit, it ends in the same way in all visits that lead to it. -/
theorem Visit.ended_of_reaches {v w : Visit} (h : ReflTransGen Visit.Step v w) {why : Stop}
    (hstop : w.after.stop = some why) : v.after.stop = some why := by
  induction h using ReflTransGen.head_induction_on with
  | refl => exact hstop
  | head hstep _ ih => exact (hstep.ended why ih).1

/-- From the state in front of a function, the store stays until its body. -/
theorem Visit.Begins.starts {options : Options} {own : FrameId} {header : Header} {body : Block Expr} {st : CheckState}
    {v : Visit} (h : v.Begins options own header body st) : st.store.Stays v.state.store := by
  cases h with
  | body henter hbind =>
    have hentered := (Check.advances_attempt Action.grounds_enterFunction).of_run henter
    exact hentered.stays.trans ((Check.advances_bindParams _ _ _).of_run hbind).stays

open Check in
/-- From the start of a visit, the store stays until the start of a visit that it leads to. -/
theorem Visit.Step.starts {v w : Visit} (h : v.Step w) : v.state.store.Stays w.state.store := by
  cases h with
  | memberBase => exact .refl _
  | callee => exact .refl _
  | arguments _ _ hcallee => exact ((advances_expr _ _ _).of_run hcallee).stays
  | builtinArguments _ _ hfind => exact ((advances_attempt Action.reads_findBuiltin.grounds).of_run hfind).stays
  | operand => exact .refl _
  | left => exact .refl _
  | right _ _ hleft => exact ((advances_expr _ _ _).of_run hleft).stays
  | target => exact .refl _
  | source _ _ htarget => exact ((advances_expr _ _ _).of_run htarget).stays
  | literalFields _ _ hstruct => exact ((advances_attempt Action.grounds_literalStruct).of_run hstruct).stays
  | initial => exact .refl _
  | block => exact .refl _
  | ifCondition => exact .refl _
  | thenBlock _ _ hcond hbool =>
    have hexpected := (advances_demand Action.grounds_expectType).of_run hbool
    exact ((advances_expr _ _ _).of_run hcond).stays.trans hexpected.stays
  | elseBranch _ _ hcond hbool hthen =>
    have hexpected := (advances_demand Action.grounds_expectType).of_run hbool
    have hbranch := ((advances_block _ _ _).of_run hthen).stays
    exact (((advances_expr _ _ _).of_run hcond).stays.trans hexpected.stays).trans hbranch
  | whileCondition => exact .refl _
  | whileBody _ _ hcond hbool =>
    have hexpected := (advances_demand Action.grounds_expectType).of_run hbool
    exact ((advances_expr _ _ _).of_run hcond).stays.trans hexpected.stays
  | endlessBody => exact .refl _
  | result => exact .refl _
  | nested _ _ hnested hbegins =>
    exact ((advances_attempt Action.grounds_enterNested).of_run hnested).stays.trans hbegins.starts
  | present => exact .refl _
  | head => exact .refl _
  | tail hhead => exact ((advances_expr _ _ _).of_run hhead).stays
  | fieldValue hfield => exact ((advances_attempt Action.reads_field.grounds).of_run hfield).stays
  | laterFields hfield hvalue hfits =>
    have hfound := (advances_attempt Action.reads_field.grounds).of_run hfield
    have hgiven := hfound.trans ((advances_expr _ _ _).of_run hvalue)
    exact (hgiven.trans ((advances_demand Action.grounds_expectType).of_run hfits)).stays
  | statements _ _ hnest => exact ((advances_attempt Action.grounds_nest).of_run hnest).stays
  | blockTail _ _ hnest hstmts =>
    have hnested := ((advances_attempt Action.grounds_nest).of_run hnest).stays
    exact hnested.trans ((advances_exprs _ _ _).of_run hstmts).stays

/-! ### Phases -/

/-- In the beginning all types are primitive. -/
theorem Store.primitive_initial {t : TypeId} {e : TypeEntry} (he : ({} : Store).typeAt? t = some e) :
    ∃ name, e = .primitive name := by
  have he : (Types.primitives.map TypeEntry.primitive)[t]? = some e := he
  rw [List.getElem?_map] at he
  obtain ⟨name, -, rfl⟩ := Option.map_eq_some_iff.mp he
  exact ⟨name, rfl⟩

/-- In the beginning primitive types have names. -/
theorem Store.types_initial {f : Frame} {p : String × TypeId} (hf : f ∈ Frames.initial.frames) (hp : p ∈ f.types) :
    p ∈ Frames.builtinTypes := by
  simp only [Frames.initial, List.mem_cons, List.not_mem_nil, or_false] at hf
  rcases hf with rfl | rfl | rfl
  · exact hp
  · cases hp
  · cases hp

theorem Store.grounded_initial : ({} : Store).Grounded := by
  refine ⟨.primitive rfl (by decide), fun t params returns he => ?_, fun t decl fields he => ?_,
    fun fr f hf p hp => ?_, nofun⟩
  · obtain ⟨name, heq⟩ := primitive_initial he
    cases heq
  · obtain ⟨name, heq⟩ := primitive_initial he
    cases heq
  · have hbuiltin := types_initial (List.mem_of_getElem? hf) hp
    simp only [Frames.builtinTypes, List.mem_cons, List.not_mem_nil, or_false] at hbuiltin
    rcases hbuiltin with rfl | rfl | rfl | rfl | rfl | rfl <;> exact .primitive rfl (by decide)

namespace Phase

variable {phase : Phase} {options : Options} {item item' : Item} {items items' : List Item} {p q : Progress}

private theorem stays_runOn {a : Action Unit} {s : Store} (h : a.Grounds) : s.Stays (a.runOn s).store := fun hs =>
  have hmaintains := h s hs _ _ rfl
  ⟨hmaintains.1, hmaintains.2.1⟩

private theorem stays_discard {α : Type} {a : Action α} {s : Store} (h : a.Grounds) :
    s.Stays ((discard a).runOn s).store :=
  stays_runOn (a := a >>= fun _ => pure ()) (h.bind fun _ => Action.grounds_pure)

private theorem stays_apply {d : Decl} {s : Store} : s.Stays (phase.apply options d s).2.store := by
  cases phase with
  | registration =>
    refine stays_runOn fun s hs => ?_
    cases d with
    | struct d => exact Action.maintains_registerStruct hs
    | function f => exact Action.maintains_registerFunction hs
  | structs =>
    cases d with
    | struct d => exact stays_discard (a := Action.resolveStruct _ d) fun _ hs => Action.maintains_resolveStruct hs
    | function f => exact .refl s
  | signatures =>
    cases d with
    | struct d => exact .refl s
    | function f => exact stays_discard (a := resolveFunction _ f) fun _ hs => Action.maintains_signature hs
  | bodies =>
    cases d with
    | struct d => exact .refl s
    | function f =>
      have hadvances : Check.Advances (Check.functionWith options FrameId.module f.info f.header f.body
          fun c frame => Check.block c frame f.body) := Check.advances_functionWith (Check.advances_block f.body)
      exact (hadvances { store := s }).stays

theorem stays_step (h : phase.step options item p = .ok (item', q)) : p.store.Stays q.store := by
  have happly : p.store.Stays (phase.apply options item.decl p.store).2.store := stays_apply
  unfold step at h
  split at h
  · cases h
    exact .refl p.store
  · split at h
    · rename_i hrun
      rw [hrun] at happly
      cases h
      exact happly
    · rename_i hrun
      rw [hrun] at happly
      cases h
      exact happly
    · cases h

theorem stays_run (h : phase.run options items p = .ok (items', q)) : p.store.Stays q.store := by
  induction items generalizing p items' with
  | nil =>
    cases h
    exact .refl _
  | cons item items ih =>
    obtain ⟨_, _, p₁, hstep, hrun, -⟩ := run_cons_inv h
    exact (stays_step hstep).trans (ih hrun)

theorem stays_runAll {phases : List Phase} (h : runAll options phases items p = .ok (items', q)) :
    p.store.Stays q.store := by
  induction phases generalizing items p with
  | nil =>
    cases h
    exact .refl _
  | cons phase phases ih =>
    rw [runAll] at h
    cases hrun : phase.run options items p with
    | error g =>
      rw [hrun] at h
      cases h
    | ok r =>
      rw [hrun, ok_bind] at h
      exact (stays_run hrun).trans (ih h)

end Phase

end RainCheck
