import RainCheck.Proofs.Grounding

/-!
# Walks that go on

A walk that goes on behind a part has come to all identifiers of the part (`Visit.Covers`): an action in it gave a
result, and the walk goes on behind all visits that are made.
-/

namespace RainCheck

open Check RainCheck.Action
open Relation (ReflTransGen)

variable {functions : List Variable} {σ σ' : Scope} {c : Context} {fr : FrameId} {st st₁ : CheckState} {v w : Visit}

/-! ### Behind an action -/

/-- A walk that goes on has not ended in a part whose end would be its own. -/
theorem goes_on {stop stop' : Option Stop} {P : Prop} (hend : ∀ why, stop' = some why → stop = some why ∧ P)
    (hstop : stop = none) : stop' = none := by
  cases hstop' : stop' with
  | none => rfl
  | some why =>
    rw [(hend why hstop').1] at hstop
    cases hstop

private theorem attempt_none_ended {α : Type} {a : Action α} (h : (attempt a).run st = (none, st₁)) :
    ∃ why, st₁.stop = some why := by
  cases hstop : st.stop with
  | some why =>
    rw [run_attempt_ended hstop] at h
    cases h
    exact ⟨why, hstop⟩
  | none =>
    rw [run_attempt hstop] at h
    split at h
    · cases h
    · cases h
      exact ⟨_, rfl⟩

/-- An action gave a result if the walk goes on behind it. -/
theorem attempt_some {α β : Type} {a : Action α} {f : Option α → Check β}
    (hstop : ((attempt a >>= f).run st).2.stop = none) (hf : Steady (f none)) :
    ∃ x st', (attempt a).run st = (some x, st') := by
  obtain ⟨o, st', hrun⟩ : ∃ o st', (attempt a).run st = (o, st') := ⟨_, _, rfl⟩
  cases o with
  | some x => exact ⟨x, st', hrun⟩
  | none =>
    obtain ⟨why, hwhy⟩ := attempt_none_ended hrun
    have hend : ((attempt a >>= f).run st).2.stop = some why := by
      change ((f ((attempt a).run st).1).run ((attempt a).run st).2).2.stop = _
      rw [hrun]
      exact (hf st' why hwhy).1
    rw [hstop] at hend
    cases hend

/-- The body of a function is visited, if the walk goes on behind the function. -/
theorem exists_begins {options : Options} {own : FrameId} {info : Info} {header : Header} {body : Block Expr}
    (huntyped : info.type = none)
    (hstop : ((functionWith options own info header body fun c frame => Check.block c frame body).run st).2.stop =
      none) :
    ∃ c fr st', Visit.Begins options own header body st ⟨c, fr, .block body, st'⟩ ∧ c.returns.isSome = true ∧
      (Visit.after ⟨c, fr, .block body, st'⟩).stop = none := by
  have henter : ∃ entry st₁, (attempt (enterFunction own header)).run st = (some entry, st₁) := by
    unfold functionWith at hstop
    simp only [huntyped, Option.isSome_none, Bool.false_eq_true, if_false] at hstop
    exact attempt_some hstop steady_pure
  obtain ⟨entry, st₁, henter⟩ := henter
  have hbegins : Visit.Begins options own header body st _ := .body henter rfl
  exact ⟨_, _, _, hbegins, rfl, goes_on (hbegins.contained huntyped) hstop⟩

/-! ### All identifiers -/

/-- A visit leads to the visits of all identifiers in its part. -/
def Visit.Covers (functions : List Variable) (σ : Scope) (v : Visit) : Prop :=
  ∀ u ∈ v.part.uses functions σ, ∃ c fr st,
    ReflTransGen Visit.Step v ⟨c, fr, .expr (.identifier { span := u.span } u.name none), st⟩ ∧ st.stop = none

/-- What a visit leads to covers its part of the identifiers, if the walk goes on. -/
private theorem Visit.Step.covers (h : v.Step w) (hstop : v.after.stop = none)
    (hcovers : w.after.stop = none → w.Covers functions σ) {u : Use} (hu : u ∈ w.part.uses functions σ) :
    ∃ c fr st, ReflTransGen Visit.Step v ⟨c, fr, .expr (.identifier { span := u.span } u.name none), st⟩ ∧
      st.stop = none := by
  obtain ⟨c, fr, st, hsteps, hopen⟩ := hcovers (goes_on h.ended hstop) u hu
  exact ⟨c, fr, st, .head h hsteps, hopen⟩

mutual

/-- All identifiers of a fresh expression are visited, if the walk goes on behind the expression. -/
private theorem covers_expr (e : Expr) {b : Bool} (hf : e.Fresh b) {c : Context} (hreturns : c.returns.isSome = true)
    {fr : FrameId} {σ : Scope} {st : CheckState} (hstop : (Visit.after ⟨c, fr, .expr e, st⟩).stop = none) :
    Visit.Covers functions σ ⟨c, fr, .expr e, st⟩ := by
  have hopen : st.stop = none := goes_on (steady_expr e st) hstop
  have huntyped : e.info.type = none := hf.untyped
  -- an identifier of a part is reached by the step into that part, which was taken since the walk went on
  intro u hu
  cases e with
  | integer | float | boolean | leaveLoop | nextRound => cases hu
  | identifier info name binding =>
    cases hf
    obtain rfl := List.mem_singleton.mp hu
    exact ⟨c, fr, st, .refl, hopen⟩
  | member info base name nameSpan index =>
    cases hf with
    | member hbase => exact Visit.Step.covers (.memberBase hopen huntyped) hstop (covers_expr base hbase hreturns) hu
  | call info callee args =>
    cases hf with
    | call hcallee hargs =>
      rcases List.mem_append.mp hu with hu | hu
      · exact Visit.Step.covers (.callee hopen huntyped) hstop (covers_expr callee hcallee hreturns) hu
      · exact Visit.Step.covers (.arguments hopen huntyped rfl) hstop (covers_exprs args hargs hreturns) hu
  | builtinCall info name args =>
    have hfind : ∃ b st₁, (attempt (findBuiltin info name)).run st = (some b, st₁) := by
      unfold Visit.after at hstop
      dsimp only at hstop
      rw [Check.expr, run_open hopen (skip_untyped huntyped)] at hstop
      exact attempt_some hstop steady_pure
    obtain ⟨b, st₁, hfind⟩ := hfind
    cases hf with
    | builtinCall hargs =>
      exact Visit.Step.covers (.builtinArguments hopen huntyped hfind) hstop (covers_exprs args hargs hreturns) hu
  | unary info op operand =>
    cases hf with
    | unary hoperand =>
        exact Visit.Step.covers (.operand hopen huntyped) hstop (covers_expr operand hoperand hreturns) hu
  | binary info op lhs rhs =>
    cases hf with
    | binary hlhs hrhs =>
      rcases List.mem_append.mp hu with hu | hu
      · exact Visit.Step.covers (.left hopen huntyped) hstop (covers_expr lhs hlhs hreturns) hu
      · exact Visit.Step.covers (.right hopen huntyped rfl) hstop (covers_expr rhs hrhs hreturns) hu
  | assignment info target source =>
    cases hf with
    | assignment htarget hsource =>
      rcases List.mem_append.mp hu with hu | hu
      · exact Visit.Step.covers (.target hopen huntyped) hstop (covers_expr target htarget hreturns) hu
      · exact Visit.Step.covers (.source hopen huntyped rfl) hstop (covers_expr source hsource hreturns) hu
  | structLiteral info name inits =>
    have hstruct : ∃ x st₁, (attempt (literalStruct fr info name)).run st = (some x, st₁) := by
      unfold Visit.after at hstop
      dsimp only at hstop
      rw [Check.expr, run_open hopen (skip_untyped huntyped)] at hstop
      exact attempt_some hstop steady_pure
    obtain ⟨⟨type, owner, declared⟩, st₁, hstruct⟩ := hstruct
    cases hf with
    | structLiteral hinits =>
      exact Visit.Step.covers (.literalFields hopen huntyped hstruct) hstop (covers_fields inits hinits hreturns) hu
  | letBinding info binding declared init =>
    cases hf with
    | letBinding hinit => exact Visit.Step.covers (.initial hopen huntyped) hstop (covers_expr init hinit hreturns) hu
  | block b =>
    have hblock : (Expr.block b).Fresh false := hf.value rfl
    exact Visit.Step.covers (.block hopen huntyped) hstop (covers_block b hblock hreturns) hu
  | ifElse info cond thenBlock other =>
    cases hf with
    | ifElse hcond hthen hother =>
      rcases List.mem_append.mp hu with hu | hu
      · rcases List.mem_append.mp hu with hu | hu
        · exact Visit.Step.covers (.ifCondition hopen huntyped) hstop (covers_expr cond hcond hreturns) hu
        · exact Visit.Step.covers (.thenBlock hopen huntyped rfl rfl) hstop (covers_block thenBlock hthen hreturns) hu
      · exact Visit.Step.covers (.elseBranch hopen huntyped rfl rfl rfl) hstop (covers_option other hother hreturns) hu
  | whileLoop info cond body =>
    cases hf with
    | whileLoop hcond hbody =>
      rcases List.mem_append.mp hu with hu | hu
      · exact Visit.Step.covers (.whileCondition hopen huntyped) hstop (covers_expr cond hcond hreturns) hu
      · exact Visit.Step.covers (.whileBody hopen huntyped rfl rfl) hstop (covers_block body hbody hreturns) hu
  | endlessLoop info body =>
    cases hf with
    | endlessLoop hbody =>
        exact Visit.Step.covers (.endlessBody hopen huntyped) hstop (covers_block body hbody hreturns) hu
  | leaveFunction info result =>
    cases hf with
    | leaveFunction hresult =>
      exact Visit.Step.covers (.result hopen huntyped hreturns) hstop (covers_option result hresult hreturns) hu
  | function info header body =>
    have hnested : ∃ own st₁, (attempt (enterNested fr header)).run st = (some own, st₁) := by
      unfold Visit.after at hstop
      dsimp only at hstop
      rw [Check.expr, run_open hopen (skip_untyped huntyped)] at hstop
      exact attempt_some hstop steady_pure
    obtain ⟨own, st₁, hnested⟩ := hnested
    obtain ⟨c', fr', st', hbegins, hreturns', -⟩ :=
      exists_begins huntyped (goes_on (contains_nested hopen huntyped hnested) hstop)
    cases hf with
    | function _ _ hbody =>
      exact Visit.Step.covers (.nested hopen huntyped hnested hbegins) hstop (covers_block body hbody hreturns') hu

/-- The same for an expression that may be left out. -/
private theorem covers_option (e : Option Expr) (hf : ∀ x ∈ e, x.Fresh false) {c : Context}
    (hreturns : c.returns.isSome = true)
    {fr : FrameId} {σ : Scope} {st : CheckState} (hstop : (Visit.after ⟨c, fr, .option e, st⟩).stop = none) :
    Visit.Covers functions σ ⟨c, fr, .option e, st⟩ := by
  intro u hu
  match e with
  | none => cases hu
  | some e => exact Visit.Step.covers .present hstop (covers_expr e (hf e rfl) hreturns) hu

/-- The same for expressions one behind the other. -/
private theorem covers_exprs (es : List Expr) {b : Bool} (hf : ∀ e ∈ es, e.Fresh b) {c : Context}
    (hreturns : c.returns.isSome = true) {fr : FrameId} {σ : Scope} {st : CheckState}
    (hstop : (Visit.after ⟨c, fr, .exprs es, st⟩).stop = none) : Visit.Covers functions σ ⟨c, fr, .exprs es, st⟩ := by
  intro u hu
  match es with
  | [] => cases hu
  | e :: rest =>
    rcases List.mem_append.mp hu with hu | hu
    · exact Visit.Step.covers .head hstop (covers_expr e (hf e List.mem_cons_self) hreturns) hu
    · have hrest : ∀ e ∈ rest, e.Fresh b := fun e he => hf e (List.mem_cons_of_mem _ he)
      exact Visit.Step.covers (.tail rfl) hstop (covers_exprs rest hrest hreturns) hu

/-- The same for the fields of a struct literal. -/
private theorem covers_fields (inits : List (FieldInit Expr)) (hf : ∀ f ∈ inits, f.value.Fresh false) {c : Context}
    (hreturns : c.returns.isSome = true) {fr : FrameId} {σ : Scope} {st : CheckState} {owner : String}
    {declared : List (String × TypeId)} {seen : List String}
    (hstop : (Visit.after ⟨c, fr, .fields owner declared seen inits, st⟩).stop = none) :
    Visit.Covers functions σ ⟨c, fr, .fields owner declared seen inits, st⟩ := by
  intro u hu
  match inits with
  | [] => cases hu
  | ⟨name, span, value⟩ :: rest =>
    have hfield : ∃ type st₁, (attempt (fieldRule owner declared seen name span)).run st = (some type, st₁) := by
      unfold Visit.after at hstop
      dsimp only at hstop
      rw [Check.fields] at hstop
      exact attempt_some hstop steady_pure
    obtain ⟨type, st₁, hfield⟩ := hfield
    rcases List.mem_append.mp hu with hu | hu
    · have hvalue : value.Fresh false := hf ⟨name, span, value⟩ List.mem_cons_self
      exact Visit.Step.covers (.fieldValue hfield) hstop (covers_expr value hvalue hreturns) hu
    · have hrest : ∀ f ∈ rest, f.value.Fresh false := fun f h => hf f (List.mem_cons_of_mem _ h)
      exact Visit.Step.covers (.laterFields hfield rfl rfl) hstop (covers_fields rest hrest hreturns) hu

/-- The same for a block. -/
theorem covers_block (b : Block Expr) (hf : (Expr.block b).Fresh false) {c : Context}
    (hreturns : c.returns.isSome = true)
    {fr : FrameId} {σ : Scope} {st : CheckState} (hstop : (Visit.after ⟨c, fr, .block b, st⟩).stop = none) :
    Visit.Covers functions σ ⟨c, fr, .block b, st⟩ := by
  have hopen : st.stop = none := goes_on (steady_block b st) hstop
  have huntyped : b.info.type = none := hf.untyped
  intro u hu
  match b with
  | ⟨info, entered, stmts, tail⟩ =>
    have hnest : ∃ inner st₁, (attempt (Action.nest fr)).run st = (some inner, st₁) := by
      unfold Visit.after at hstop
      dsimp only at hstop
      rw [Check.block, run_open hopen (skip_untyped huntyped)] at hstop
      exact attempt_some hstop steady_pure
    obtain ⟨inner, st₁, hnest⟩ := hnest
    cases hf with
    | block hstmts htail =>
      rcases List.mem_append.mp hu with hu | hu
      · exact Visit.Step.covers (.statements hopen huntyped hnest) hstop (covers_exprs stmts hstmts hreturns) hu
      · exact Visit.Step.covers (.blockTail hopen huntyped hnest rfl) hstop (covers_option tail htail hreturns) hu

end

end RainCheck
