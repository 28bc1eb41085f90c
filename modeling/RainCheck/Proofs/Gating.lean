import RainCheck.Proofs.Accepted
import RainCheck.Proofs.Addresses
import RainCheck.Proofs.Folding

/-!
# Features

Some builtins need a feature of the target.  Which features are enabled decides whether such a call is refused, and
nothing else.
* (rules) A call is accepted with some features if it is accepted with others and its own feature is enabled.
* (walks) A walk that goes on goes on alike with other features, if all calls in the tree it gives are permitted.
* (modules) So a module is accepted with some features exactly if it is accepted with all of them and permitted.
-/

namespace RainCheck

open Check RainCheck.Action

/-! ### Calls that are permitted -/

/-- The feature that a call of a builtin needs, for a first argument with a value of the given type. -/
def requiredFeature (name : String) (type : TypeId) : Option Feature :=
  if name = "extend8" ∨ name = "extend16" then some .signExtension
  else if (name = "i32" ∨ name = "i64") ∧ (type = TypeId.f32 ∨ type = TypeId.f64) then some .saturatingConversion
  else none

/-- A builtin call is permitted if its feature is enabled; every other node is. -/
def Expr.Permitted (o : Options) (s : Store) : Expr → Prop
  | .builtinCall _ name args => ∀ first t u f, args.head? = some first → first.info.type = some t → s.Loads t u →
      requiredFeature name u = some f → o.has f = true
  | _ => True

/-- All calls in a compiled file are permitted. -/
def CompiledUnit.Permitted (o : Options) (u : CompiledUnit) : Prop :=
  ∀ m, u.module = some m → ∀ n ∈ u.nodes, n.Permitted o m.store

/-- Options that differ by the features they enable. -/
def Options.SameBut (o o' : Options) : Prop := o' = { o with features := o'.features }

private theorem requiredFeature_eq {name : String} {b : Builtin} (h : Builtin.ofName? name = some b) (t : TypeId) :
    requiredFeature name t = b.family.feature? t := by
  have hname : b.name = name := by simpa using List.find?_some h
  subst hname
  by_cases h32 : t = TypeId.f32 <;> by_cases h64 : t = TypeId.f64 <;>
    cases b <;> simp [requiredFeature, Builtin.name, Builtin.family, Builtin.Family.feature?, TypeId.isFloat,
      TypeId.isInteger, h32, h64, show TypeId.f32 ≠ TypeId.i32 by decide, show TypeId.f64 ≠ TypeId.i32 by decide,
      show TypeId.f32 ≠ TypeId.i64 by decide, show TypeId.f64 ≠ TypeId.i64 by decide]

/-- Every feature that is needed has a name. -/
private theorem requiredFeature_listed {name : String} {t : TypeId} {f : Feature}
    (h : requiredFeature name t = some f) :
    f ∈ Feature.listed := by
  unfold requiredFeature at h
  split at h
  · cases h
    decide
  · split at h
    · cases h
      decide
    · cases h

private theorem Expr.permitted_listed (o : Options) (s : Store) (n : Expr) :
    n.Permitted { o with features := Feature.listed } s := by
  cases n with
  | builtinCall i name args =>
    intro first t u f _ _ _ hf
    exact List.contains_iff_mem.mpr (requiredFeature_listed hf)
  | _ => trivial

/-! ### Rules -/

section

variable {o o' : Options} {info i j : Info} {b : Builtin} {args : List Expr} {s s' : Store} {st st' : CheckState}

private theorem yields_expectFeature {t : TypeId} {x : Unit} :
    (expectFeature o info b t).Yields s x s' ↔ (∀ f, b.family.feature? t = some f → o.has f = true) ∧ s = s' := by
  unfold expectFeature
  cases b.family.feature? t with
  | none => simp
  | some f => cases hf : o.has f <;> simp [hf]

/-- A builtin rule that gives a result, step by step: only one of its steps looks at the features. -/
private theorem yields_builtin : (builtinRule o info b args).Yields s j s' ↔
    ∃ first rest t u s₁ v, args = first :: rest ∧ args.length = b.family.arity ∧
      first.info.type = some t ∧ s.Loads t u ∧
      b.family.takes u = true ∧ (matchSecond u args).Yields s () s₁ ∧
      (∀ f, b.family.feature? u = some f → o.has f = true) ∧ (foldArguments o b args).Yields s₁ v s' ∧
      j = operationInfo info (b.family.result u) v (args.all (·.info.compileTime)) := by
  unfold builtinRule
  dsimp only
  constructor
  · intro h
    split at h
    · obtain ⟨_, _, hrefuse, -⟩ := yields_bind.mp h
      exact absurd hrefuse yields_refuse
    rename_i hlen
    cases args with
    | nil => exact absurd h yields_fail
    | cons first rest =>
      simp only [yields_bind, yields_typeOf, yields_load] at h
      obtain ⟨t, _, ⟨ht, rfl⟩, u, _, ⟨hu, rfl⟩, h⟩ := h
      split at h
      · obtain ⟨_, _, -, hrefuse⟩ := yields_bind.mp h
        obtain ⟨_, _, hrefuse, -⟩ := yields_bind.mp hrefuse
        exact absurd hrefuse yields_refuse
      rename_i htakes
      simp only [yields_bind, yields_expectFeature, yields_pure] at h
      obtain ⟨_, s₁, hsecond, _, _, ⟨hfeature, rfl⟩, v, _, hv, rfl, rfl⟩ := h
      exact ⟨first, rest, t, u, s₁, v, rfl,
        by simpa using hlen, ht, hu, by simpa using htakes, hsecond, hfeature, hv, rfl⟩
  · rintro ⟨first, rest, t, u, s₁, v, rfl, hlen, ht, hu, htakes, hsecond, hfeature, hv, rfl⟩
    rw [if_neg (by simpa using hlen)]
    dsimp only
    simp only [yields_bind, yields_typeOf, yields_load]
    refine ⟨t, s, ⟨ht, rfl⟩, u, s, ⟨hu, rfl⟩, ?_⟩
    rw [if_neg (by simpa using htakes)]
    simp only [yields_bind, yields_expectFeature, yields_pure]
    exact ⟨(), s₁, hsecond, (), s₁, ⟨hfeature, rfl⟩, v, s', hv, rfl, rfl⟩

/-- A rule that gives the same result says the same about a node. -/
private theorem conclude_congr {rule rule' : Action Info} (h : (conclude info rule).run st = (i, st'))
    (hstop : st'.stop = none)
    (hrule : ∀ j s', rule.Yields st.store j s' → rule'.Yields st.store j s') :
    (conclude info rule').run st = (i, st') := by
  have hopen := conclude_opened h hstop
  obtain ⟨j, -, hgives, -⟩ := conclude_inv h hstop
  have hsame : (do settle (← rule') : Action Info).run.run st.store = (do settle (← rule)).run.run st.store := by
    rw [run_bind, run_bind, show rule.run.run st.store = _ from hgives.yields,
      show rule'.run.run st.store = _ from hrule _ _ hgives.yields]
  have hattempt : (attempt (do settle (← rule'))).run st = (attempt (do settle (← rule))).run st := by
    rw [run_attempt hopen, run_attempt hopen, hsame]
  obtain ⟨o, st₁, hrun, hreturn⟩ := run_bind_inv h
  rw [hrun] at hattempt
  exact (run_bind_of hattempt).trans hreturn

end

/-! ### Parts of walks -/

/-- A walk that goes on in a state from which a store is reached later. -/
structure CheckState.Toward (S : Store) (st : CheckState) : Prop where
  alive : st.stop = none
  stays : st.store.Stays S

section

variable {α : Type} {a : Check α} {x : α} {S : Store} {st st' : CheckState} {c : Context} {fr : FrameId}

/-- A walk that goes on behind a part went on in front of it. -/
private theorem CheckState.Toward.back (h : st'.Toward S) (ha : Calm a) (hrun : a.run st = (x, st')) : st.Toward S :=
  ⟨ha.steady.opened hrun h.alive, (ha.of_run hrun).trans h.stays⟩

private theorem Check.Calm.grounded (ha : Calm a) (hrun : a.run st = (x, st')) (hg : st.store.Grounded) :
    st'.store.Grounded :=
  (ha.of_run hrun hg).1

/-- What is said about the loops around makes no difference to where a walk leads. -/
private theorem CheckState.Toward.loops (h : st.Toward S) (loops : List Bool) : CheckState.Toward S { st with loops } :=
  ⟨h.alive, h.stays⟩

end

/-! ### Walks with other features -/

/-- Contexts that differ by the features they enable. -/
structure Context.SameBut (c c' : Context) : Prop where
  options : c.options.SameBut c'.options
  returns : c'.returns = c.returns

/--
If the walk through a tree goes on, it goes on alike with other features that permit all calls in the tree it gives.
Types are looked up in a later store.
-/
structure Expr.Transfers (S : Store) (e : Expr) : Prop where
  walk : ∀ {c c' : Context} {fr : FrameId} {st st' : CheckState} {e' : Expr}, c.SameBut c' → st.store.Grounded →
    (Check.expr c fr e).run st = (e', st') → st'.Toward S → (∀ n ∈ e'.nodes, n.Permitted c'.options S) →
    (Check.expr c' fr e).run st = (e', st')

section

variable {S : Store} {c c' : Context} {fr : FrameId} {st st' : CheckState}

private theorem transfers_of_walked {e : Expr} (huntyped : e.info.type = none)
    (h : ∀ {c c' : Context} {fr : FrameId} {st st' : CheckState} {e' : Expr}, c.SameBut c' → st.store.Grounded →
      e.Walked c fr st e' st' → st'.Toward S → (∀ n ∈ e'.nodes, n.Permitted c'.options S) →
      e.Walked c' fr st e' st') : e.Transfers S where
  walk hc hg hrun hend hn :=
    (h hc hg (Expr.walked huntyped hrun hend.alive) hend hn).run huntyped ((steady_expr e).opened hrun hend.alive)

private theorem transfers_option {e e' : Option Expr} (h : ∀ x ∈ e, x.Transfers S) (hc : c.SameBut c')
    (hg : st.store.Grounded)
    (hrun : (Check.option c fr e).run st = (e', st')) (hend : st'.Toward S)
    (hn : ∀ n ∈ Expr.nodesOption e', n.Permitted c'.options S) : (Check.option c' fr e).run st = (e', st') := by
  cases e with
  | none =>
    rw [Check.option] at hrun ⊢
    exact hrun
  | some x =>
    rw [Check.option] at hrun ⊢
    obtain ⟨x', st₁, hx, hreturn⟩ := run_bind_inv hrun
    cases hreturn
    exact run_bind_of ((h x rfl).walk hc hg hx hend hn)

private theorem transfers_exprs {es es' : List Expr} (h : ∀ e ∈ es, e.Transfers S) (hc : c.SameBut c')
    (hg : st.store.Grounded)
    (hrun : (Check.exprs c fr es).run st = (es', st')) (hend : st'.Toward S)
    (hn : ∀ n ∈ Expr.nodesAll es', n.Permitted c'.options S) : (Check.exprs c' fr es).run st = (es', st') := by
  induction es generalizing st es' with
  | nil =>
    rw [Check.exprs] at hrun ⊢
    exact hrun
  | cons e rest ih =>
    rw [Check.exprs] at hrun ⊢
    obtain ⟨e', st₁, he, hrun⟩ := run_bind_inv hrun
    obtain ⟨rest', st₂, hrest, hreturn⟩ := run_bind_inv hrun
    cases hreturn
    rw [Expr.nodesAll] at hn
    have hfirst := (h e List.mem_cons_self).walk hc hg he (hend.back (calm_exprs rest) hrest) fun n hmem =>
      hn n (List.mem_append_left _ hmem)
    have hlater := ih (fun x hx => h x (List.mem_cons_of_mem _ hx)) ((calm_expr e).grounded he hg) hrest
      fun n hmem => hn n (List.mem_append_right _ hmem)
    rw [run_bind_of hfirst]
    exact run_bind_of hlater

private theorem transfers_fields {inits inits' : List (FieldInit Expr)} {owner : String}
    {declared : List (String × TypeId)}
    {seen : List String} (h : ∀ f ∈ inits, f.value.Transfers S) (hc : c.SameBut c') (hg : st.store.Grounded)
    (hrun : (Check.fields c fr owner declared seen inits).run st = (inits', st')) (hend : st'.Toward S)
    (hn : ∀ n ∈ Expr.nodesFields inits', n.Permitted c'.options S) :
    (Check.fields c' fr owner declared seen inits).run st = (inits', st') := by
  induction inits generalizing st inits' seen with
  | nil =>
    rw [Check.fields] at hrun ⊢
    exact hrun
  | cons init rest ih =>
    have hvalue := h init List.mem_cons_self
    obtain ⟨name, span, value⟩ := init
    rw [Check.fields] at hrun ⊢
    obtain ⟨type, st₁, hfield, hrun⟩ := attempt_inv hrun hend.alive steady_pure
    obtain ⟨value', st₂, hwalk, hrun⟩ := run_bind_inv hrun
    obtain ⟨_, st₃, hfits, hrun⟩ := run_bind_inv hrun
    obtain ⟨rest', st₄, hrest, hreturn⟩ := run_bind_inv hrun
    cases hreturn
    rw [Expr.nodesFields] at hn
    have hdemand : Calm (demand (expectExpr value' type)) := calm_demand grounds_expectType
    have h₃ := hend.back (calm_fields rest) hrest
    have h₂ := h₃.back hdemand hfits
    have hg₁ := (calm_attempt reads_field.grounds).grounded hfield hg
    have hg₂ := (calm_expr value).grounded hwalk hg₁
    have hfirst := hvalue.walk hc hg₁ hwalk h₂ fun n hmem => hn n (List.mem_append_left _ hmem)
    have hlater := ih (fun f hf => h f (List.mem_cons_of_mem _ hf)) (hdemand.grounded hfits hg₂) hrest
      fun n hmem => hn n (List.mem_append_right _ hmem)
    rw [run_bind_of hfield]
    dsimp only
    rw [run_bind_of hfirst, run_bind_of hfits]
    exact run_bind_of hlater

private theorem transfers_block {b b' : Block Expr} (h : (Expr.block b).Transfers S) (huntyped : b.info.type = none)
    (hc : c.SameBut c') (hg : st.store.Grounded) (hrun : (Check.block c fr b).run st = (b', st')) (hend : st'.Toward S)
    (hn : ∀ n ∈ Expr.nodesBlock b', n.Permitted c'.options S) : (Check.block c' fr b).run st = (b', st') := by
  have hopen : st.stop = none := (steady_block b).opened hrun hend.alive
  have hwhole : (Check.expr c fr (.block b)).run st = (.block b', st') := (Expr.Walked.block hrun).run huntyped hopen
  have htransferred := h.walk hc hg hwhole hend hn
  cases Expr.walked (by exact huntyped) htransferred hend.alive with
  | block hblock => exact hblock

/-- The rule of a builtin that gives a result gives the same one with other features, if the call is permitted. -/
private theorem transfers_builtinRule {info i : Info} {name : String} {b : Builtin}
    {args : List Expr} {st₁ st₂ : CheckState}
    (hc : c.SameBut c') (hg : st.store.Grounded) (hfind : (attempt (findBuiltin info name)).run st₁ = (some b, st₂))
    (hi : (conclude info (builtinRule c.options info b args)).run st = (i, st')) (hend : st'.Toward S)
    (hpermitted : (Expr.builtinCall i name args).Permitted c'.options S) :
    (conclude info (builtinRule c'.options info b args)).run st = (i, st') := by
  have hstay : st.store.TypesStay S := ((hend.back (calm_conclude grounds_builtin) hi).stays hg).2
  refine conclude_congr hi hend.alive fun j s' hrule => ?_
  obtain ⟨first, rest, t, u, s₁, v, rfl, hlen, ht, hu, htakes, hsecond, -, hv, rfl⟩ := yields_builtin.mp hrule
  refine yields_builtin.mpr ⟨first, rest, t, u, s₁, v, rfl, hlen, ht, hu, htakes, hsecond, fun f hf => ?_, ?_, rfl⟩
  · refine hpermitted first t u f rfl ht (hstay.loads hu) ?_
    rw [requiredFeature_eq (ofName?_of_attempt hfind)]
    exact hf
  · have hfold : foldArguments c'.options b (first :: rest) = foldArguments c.options b (first :: rest) := by
      unfold foldArguments
      rw [hc.options]
    rw [hfold]
    exact hv

/-- Two expressions one behind the other. -/
private theorem transfers_pair {a a' b b' : Expr} {st₁ : CheckState} (ha : a.Transfers S)
    (hb : b.Transfers S) (hc : c.SameBut c')
    (hg : st.store.Grounded) (hfirst : (Check.expr c fr a).run st = (a', st₁))
    (hsecond : (Check.expr c fr b).run st₁ = (b', st')) (hend : st'.Toward S)
    (hn : ∀ n ∈ a'.nodes ++ b'.nodes, n.Permitted c'.options S) :
    (Check.expr c' fr a).run st = (a', st₁) ∧ (Check.expr c' fr b).run st₁ = (b', st') := by
  obtain ⟨hn₁, hn₂⟩ := List.forall_mem_append.mp hn
  have hg₁ := (calm_expr a).grounded hfirst hg
  exact ⟨ha.walk hc hg hfirst (hend.back (calm_expr b) hsecond) hn₁, hb.walk hc hg₁ hsecond hend hn₂⟩

end

/-! ### Trees, node by node -/

section

variable {S : Store} {span : Span}

private theorem transfers_member {base : Expr} {name : String} {nameSpan : Span} {index : Nat}
    (hbase : base.Transfers S) :
    (Expr.member { span } base name nameSpan index).Transfers S := by
  refine transfers_of_walked rfl fun hc hg hwalked hend hn => ?_
  cases hwalked with
  | member hwalk hrule hi =>
    have h₂ := hend.back (calm_conclude grounds_pure) hi
    have h₁ := h₂.back (calm_attempt grounds_member) hrule
    exact .member (hbase.walk hc hg hwalk h₁ (List.forall_mem_cons.mp hn).2) hrule hi

private theorem transfers_call {callee : Expr} {args : List Expr} (hcallee : callee.Transfers S)
    (hargs : ∀ e ∈ args, e.Transfers S) : (Expr.call { span } callee args).Transfers S := by
  refine transfers_of_walked rfl fun hc hg hwalked hend hn => ?_
  cases hwalked with
  | call hfirst hsecond hi =>
    obtain ⟨hn₁, hn₂⟩ := List.forall_mem_append.mp (List.forall_mem_cons.mp hn).2
    have h₂ := hend.back (calm_conclude grounds_call) hi
    have h₁ := h₂.back (calm_exprs args) hsecond
    have hg₁ := (calm_expr callee).grounded hfirst hg
    exact .call (hcallee.walk hc hg hfirst h₁ hn₁) (transfers_exprs hargs hc hg₁ hsecond h₂ hn₂) hi

/-- The only rule that asks for a feature. -/
private theorem transfers_builtinCall {name : String} {args : List Expr} (hargs : ∀ e ∈ args, e.Transfers S) :
    (Expr.builtinCall { span } name args).Transfers S := by
  refine transfers_of_walked rfl fun hc hg hwalked hend hn => ?_
  cases hwalked with
  | builtinCall hfind hwalk hi =>
    obtain ⟨hself, hrest⟩ := List.forall_mem_cons.mp hn
    have h₂ := hend.back (calm_conclude grounds_builtin) hi
    have hg₁ := (calm_attempt reads_findBuiltin.grounds).grounded hfind hg
    have hg₂ := (calm_exprs args).grounded hwalk hg₁
    exact .builtinCall hfind (transfers_exprs hargs hc hg₁ hwalk h₂ hrest)
      (transfers_builtinRule hc hg₂ hfind hi hend hself)

private theorem transfers_unary {op : UnaryOp} {operand : Expr} (hoperand : operand.Transfers S) :
    (Expr.unary { span } op operand).Transfers S := by
  refine transfers_of_walked rfl fun hc hg hwalked hend hn => ?_
  cases hwalked with
  | unary hwalk hi =>
    have h₁ := hend.back (calm_conclude grounds_unary) hi
    exact .unary (hoperand.walk hc hg hwalk h₁ (List.forall_mem_cons.mp hn).2) hi

private theorem transfers_binary {op : BinaryOp} {lhs rhs : Expr} (hlhs : lhs.Transfers S) (hrhs : rhs.Transfers S) :
    (Expr.binary { span } op lhs rhs).Transfers S := by
  refine transfers_of_walked rfl fun hc hg hwalked hend hn => ?_
  cases hwalked with
  | binary hfirst hsecond hi =>
    have h₂ := hend.back (calm_conclude grounds_binary) hi
    obtain ⟨hfirst', hsecond'⟩ := transfers_pair hlhs hrhs hc hg hfirst hsecond h₂ (List.forall_mem_cons.mp hn).2
    exact .binary hfirst' hsecond' hi

private theorem transfers_assignment {target source : Expr} (htarget : target.Transfers S)
    (hsource : source.Transfers S) :
    (Expr.assignment { span } target source).Transfers S := by
  refine transfers_of_walked rfl fun hc hg hwalked hend hn => ?_
  cases hwalked with
  | assignment hfirst hsecond hi =>
    have h₂ := hend.back (calm_conclude grounds_assignment) hi
    obtain ⟨hfirst', hsecond'⟩ := transfers_pair htarget hsource hc hg hfirst hsecond h₂ (List.forall_mem_cons.mp hn).2
    exact .assignment hfirst' hsecond' hi

private theorem transfers_structLiteral {name : String} {inits : List (FieldInit Expr)}
    (hinits : ∀ f ∈ inits, f.value.Transfers S) :
    (Expr.structLiteral { span } name inits).Transfers S := by
  refine transfers_of_walked rfl fun hc hg hwalked hend hn => ?_
  cases hwalked with
  | structLiteral hstruct hwalk hi =>
    have h₂ := hend.back (calm_conclude grounds_literal) hi
    have hg₁ := (calm_attempt grounds_literalStruct).grounded hstruct hg
    exact .structLiteral hstruct (transfers_fields hinits hc hg₁ hwalk h₂ (List.forall_mem_cons.mp hn).2) hi

private theorem transfers_letBinding {binding : Holder Variable} {declared : Option TypeExpr} {init : Expr}
    (hinit : init.Transfers S) : (Expr.letBinding { span } binding declared init).Transfers S := by
  refine transfers_of_walked rfl fun hc hg hwalked hend hn => ?_
  cases hwalked with
  | letBinding hwalk hrule hdeclare hi =>
    have h₃ := hend.back (calm_conclude grounds_pure) hi
    have h₂ := h₃.back (calm_attempt (grounds_declare.bind fun _ => grounds_lift)) hdeclare
    have h₁ := h₂.back (calm_attempt grounds_let) hrule
    exact .letBinding (hinit.walk hc hg hwalk h₁ (List.forall_mem_cons.mp hn).2) hrule hdeclare hi

private theorem transfers_blockExpr {stmts : List Expr} {tail : Option Expr} (hstmts : ∀ e ∈ stmts, e.Transfers S)
    (htail : ∀ e ∈ tail, e.Transfers S) : (Expr.block ⟨{ span }, none, stmts, tail⟩).Transfers S := by
  refine transfers_of_walked rfl fun hc hg hwalked hend hn => ?_
  cases hwalked with
  | block hblock =>
    have hopen := (steady_block _).opened hblock hend.alive
    refine .block (Block.Walked.run ?_ rfl hopen)
    cases Block.walked rfl hblock hend.alive with
    | block hnest hfirst hlast hi =>
      obtain ⟨hn₁, hn₂⟩ := List.forall_mem_append.mp (List.forall_mem_cons.mp hn).2
      have h₃ := hend.back (calm_conclude grounds_block) hi
      have h₂ := h₃.back (calm_option tail) hlast
      have hg₁ := (calm_attempt grounds_nest).grounded hnest hg
      have hg₂ := (calm_exprs stmts).grounded hfirst hg₁
      exact .block hnest (transfers_exprs hstmts hc hg₁ hfirst h₂ hn₁) (transfers_option htail hc hg₂ hlast h₃ hn₂) hi

private theorem transfers_ifElse {cond : Expr} {thenBlock : Block Expr} {other : Option Expr} (hcond : cond.Transfers S)
    (hthen : (Expr.block thenBlock).Transfers S) (huntyped : thenBlock.info.type = none)
    (hother : ∀ e ∈ other, e.Transfers S) : (Expr.ifElse { span } cond thenBlock other).Transfers S := by
  refine transfers_of_walked rfl fun hc hg hwalked hend hn => ?_
  cases hwalked with
  | ifElse hfirst hbool hsecond hlast hi =>
    obtain ⟨hnfront, hn₃⟩ := List.forall_mem_append.mp (List.forall_mem_cons.mp hn).2
    obtain ⟨hn₁, hn₂⟩ := List.forall_mem_append.mp hnfront
    have h₄ := hend.back (calm_conclude grounds_if) hi
    have h₃ := h₄.back (calm_option other) hlast
    have h₂ := h₃.back (calm_block thenBlock) hsecond
    have h₁ := h₂.back (calm_demand grounds_expectType) hbool
    have hg₂ := (calm_demand grounds_expectType).grounded hbool ((calm_expr cond).grounded hfirst hg)
    have hg₃ := (calm_block thenBlock).grounded hsecond hg₂
    exact .ifElse (hcond.walk hc hg hfirst h₁ hn₁) hbool (transfers_block hthen huntyped hc hg₂ hsecond h₃ hn₂)
      (transfers_option hother hc hg₃ hlast h₄ hn₃) hi

private theorem transfers_whileLoop {cond : Expr} {body : Block Expr} (hcond : cond.Transfers S)
    (hbody : (Expr.block body).Transfers S) (huntyped : body.info.type = none) :
    (Expr.whileLoop { span } cond body).Transfers S := by
  refine transfers_of_walked rfl fun hc hg hwalked hend hn => ?_
  cases hwalked with
  | @whileLoop _ _ _ _ _ _ _ st₂ st₃ _ hfirst hbool hsecond hi =>
    obtain ⟨hn₁, hn₂⟩ := List.forall_mem_append.mp (List.forall_mem_cons.mp hn).2
    have h₃ : st₃.Toward S := (hend.back (calm_conclude grounds_voidBlock) hi).loops st₃.loops
    have hinside := h₃.back (calm_block body) hsecond
    have h₂ : st₂.Toward S := ⟨hinside.alive, hinside.stays⟩
    have h₁ := h₂.back (calm_demand grounds_expectType) hbool
    have hg₂ := (calm_demand grounds_expectType).grounded hbool ((calm_expr cond).grounded hfirst hg)
    exact .whileLoop (hcond.walk hc hg hfirst h₁ hn₁) hbool (transfers_block hbody huntyped hc hg₂ hsecond h₃ hn₂) hi

private theorem transfers_endlessLoop {body : Block Expr} (hbody : (Expr.block body).Transfers S)
    (huntyped : body.info.type = none) : (Expr.endlessLoop { span } body).Transfers S := by
  refine transfers_of_walked rfl fun hc hg hwalked hend hn => ?_
  cases hwalked with
  | @endlessLoop _ _ _ _ st₁ _ hwalk hi =>
    have h₁ : st₁.Toward S := (hend.back (calm_conclude grounds_voidBlock) hi).loops st₁.loops
    exact .endlessLoop (transfers_block hbody huntyped hc hg hwalk h₁ (List.forall_mem_cons.mp hn).2) hi

private theorem transfers_leaveFunction {result : Option Expr} (hresult : ∀ e ∈ result, e.Transfers S) :
    (Expr.leaveFunction { span } result).Transfers S := by
  refine transfers_of_walked rfl fun hc hg hwalked hend hn => ?_
  cases hwalked with
  | leaveFunction hreturns hwalk hi =>
    have h₁ := hend.back (calm_conclude grounds_return) hi
    exact .leaveFunction (hc.returns.trans hreturns)
      (transfers_option hresult hc hg hwalk h₁ (List.forall_mem_cons.mp hn).2) hi

private theorem transfers_function {header : Header} {body : Block Expr} (hbody : (Expr.block body).Transfers S)
    (huntyped : body.info.type = none) : (Expr.function { span } header body).Transfers S := by
  refine transfers_of_walked rfl fun {c c'} _ _ _ _ hc hg hwalked hend hn => ?_
  cases hwalked with
  | @function _ _ _ _ _ _ entry _ _ _ st₃ st₄ _ hnested henter hparams hwalk hi =>
    have h₄ : st₄.Toward S := (hend.back (calm_conclude grounds_function) hi).loops st₄.loops
    have hg₁ := (calm_attempt grounds_enterNested).grounded hnested hg
    have hg₂ := (calm_attempt grounds_enterFunction).grounded henter hg₁
    have hg₃ := calm_bindParams.grounded hparams hg₂
    -- inside of the function the contexts differ by the same features, and return the same type
    have hinside : Context.SameBut ⟨c.options, some entry.returns⟩ ⟨c'.options, some entry.returns⟩ := ⟨hc.options, rfl⟩
    exact .function hnested henter hparams
      (transfers_block hbody huntyped hinside hg₃ hwalk h₄ (List.forall_mem_cons.mp hn).2) hi

end

/-- Every tree that was parsed is walked through alike with other features, as long as they permit its calls. -/
private theorem Expr.Fresh.transfers {e : Expr} {b : Bool} (h : e.Fresh b) (S : Store) : e.Transfers S := by
  induction h with
  | integer | float | boolean | identifier | leaveLoop | nextRound =>
    refine transfers_of_walked rfl fun _ _ hwalked _ _ => ?_
    cases hwalked
    constructor <;> assumption
  | member _ ih => exact transfers_member ih
  | call _ _ ihcallee ihargs => exact transfers_call ihcallee ihargs
  | builtinCall _ ih => exact transfers_builtinCall ih
  | unary _ ih => exact transfers_unary ih
  | binary _ _ ihlhs ihrhs => exact transfers_binary ihlhs ihrhs
  | assignment _ _ ihtarget ihsource => exact transfers_assignment ihtarget ihsource
  | structLiteral _ ih => exact transfers_structLiteral ih
  | letBinding _ ih => exact transfers_letBinding ih
  | block _ _ ihstmts ihtail => exact transfers_blockExpr ihstmts ihtail
  | ifElse _ hthen _ ihcond ihthen ihother => exact transfers_ifElse ihcond ihthen hthen.untyped ihother
  | whileLoop _ hbody ihcond ihbody => exact transfers_whileLoop ihcond ihbody hbody.untyped
  | endlessLoop hbody ih => exact transfers_endlessLoop ih hbody.untyped
  | leaveFunction _ ih => exact transfers_leaveFunction ih
  | function _ _ hbody ih => exact transfers_function ih hbody.untyped

/-! ### Modules -/

section

variable {S : Store} {o o' : Options} {item item' : Item} {items items' : List Item} {p q : Progress}

/-- A function of the module that is accepted is accepted with other features, as long as they permit its calls. -/
private theorem transfers_functionWith {own : FrameId} {info i : Info} {header header' : Header}
    {body body' : Block Expr}
    {st st' : CheckState} (ho : o.SameBut o') (huntyped : info.type = none) (hbody : (Expr.block body).Fresh false)
    (hg : st.store.Grounded)
    (hrun : (functionWith o own info header body fun c frame => Check.block c frame body).run st =
      ((i, header', body'), st'))
    (hend : st'.Toward S) (hn : ∀ n ∈ Expr.nodesBlock body', n.Permitted o' S) :
    (functionWith o' own info header body fun c frame => Check.block c frame body).run st =
      ((i, header', body'), st') := by
  obtain ⟨entry, params, st₁, st₂, st₃, henter, hparams, hwalk, hi, rfl⟩ := functionWith_inv huntyped hrun hend.alive
  have h₃ : st₃.Toward S := (hend.back (calm_conclude grounds_function) hi).loops st₃.loops
  have hg₂ := calm_bindParams.grounded hparams ((calm_attempt grounds_enterFunction).grounded henter hg)
  have hc : Context.SameBut ⟨o, some entry.returns⟩ ⟨o', some entry.returns⟩ := ⟨ho, rfl⟩
  exact functionWith_of huntyped henter hparams
    (transfers_block (hbody.transfers S) hbody.untyped hc hg₂ hwalk h₃ hn) hi

/-- The last phase at one declaration without problems is the same with other features. -/
private theorem bodies_step_transfers (ho : o.SameBut o')
    (hitem : ∀ f, item.decl = .function f → f.info.type = none ∧ (Expr.block f.body).Fresh false)
    (hg : p.store.Grounded) (h : Phase.bodies.step o item p = .ok (item', q)) (herrors : q.errors = [])
    (hend : q.store.Stays S) (hn : ∀ n ∈ item'.decl.nodes, n.Permitted o' S) :
    Phase.bodies.step o' item p = .ok (item', q) := by
  by_cases hskip : p.halted = true ∨ item.failed = true
  · rw [Phase.step_skip hskip] at h ⊢
    exact h
  obtain ⟨hhalted, hfailed⟩ : p.halted = false ∧ item.failed = false := by simpa using hskip
  obtain ⟨decl, failed⟩ := item
  obtain rfl : failed = false := hfailed
  cases decl with
  | struct d =>
    simp only [Phase.step, hhalted, Bool.or_self, Bool.false_eq_true, if_false, Phase.apply] at h ⊢
    exact h
  | function f =>
    obtain ⟨huntyped, hbody⟩ := hitem f rfl
    obtain ⟨⟨i, header, body⟩, st, hrun⟩ : ∃ r st, (functionWith o FrameId.module f.info f.header f.body
      fun c frame => Check.block c frame f.body).run { store := p.store } = (r, st) := ⟨_, _, rfl⟩
    simp only [Phase.step, hhalted, Bool.or_self, Bool.false_eq_true, if_false, Phase.apply, Phase.checkBody,
      check_of_run hrun] at h
    cases hstop : st.stop with
    | some why =>
      -- a problem would have been reported
      rw [hstop] at h
      cases why with
      | fault g => cases h
      | refused d =>
        cases h
        exact absurd herrors (List.ne_nil_of_mem (Progress.mem_refuse.mpr (.inr rfl)))
    | none =>
      rw [hstop] at h
      cases h
      have hrun' := transfers_functionWith ho huntyped hbody hg hrun ⟨hstop, hend⟩ hn
      simp only [Phase.step, hhalted, Bool.or_self, Bool.false_eq_true, if_false, Phase.apply, Phase.checkBody,
        check_of_run hrun', hstop]

private theorem bodies_run_transfers (ho : o.SameBut o')
    (hitems : ∀ i ∈ items, ∀ f, i.decl = .function f → f.info.type = none ∧ (Expr.block f.body).Fresh false)
    (hg : p.store.Grounded) (h : Phase.bodies.run o items p = .ok (items', q)) (herrors : q.errors = [])
    (hend : q.store.Stays S) (hn : ∀ i ∈ items', ∀ n ∈ i.decl.nodes, n.Permitted o' S) :
    Phase.bodies.run o' items p = .ok (items', q) := by
  induction items generalizing p items' with
  | nil => exact h
  | cons item rest ih =>
    obtain ⟨item', rest', q', hstep, hrest, rfl⟩ := Phase.run_cons_inv h
    have hstep' := bodies_step_transfers ho (hitems item List.mem_cons_self) hg hstep
      (List.subset_nil.mp (herrors ▸ Phase.run_errors hrest)) ((Phase.stays_run hrest).trans hend)
      (hn item' List.mem_cons_self)
    have hrest' := ih (fun i hi => hitems i (List.mem_cons_of_mem _ hi)) (Phase.stays_step hstep hg).1 hrest
      fun i hi => hn i (List.mem_cons_of_mem _ hi)
    rw [Phase.run_cons, hstep', ok_bind]
    dsimp only
    rw [hrest']
    rfl

end

section

variable {file : SourceFile} {o o' : Options} {u : CompiledUnit}

/-- A file that is accepted is compiled alike with other features, as long as they permit its calls. -/
private theorem compile_transfers (ho : o.SameBut o') (hcompile : file.compile o = .ok u) (herrors : u.errors = [])
    (hpermitted : u.Permitted o') : file.compile o' = .ok u := by
  rcases file.declarations_parsed with ⟨decls, hdecls, hparsed⟩ | ⟨d, hrefused⟩
  · obtain ⟨items, p, hprepared, hitems, h⟩ := preparation_ends o hparsed
    obtain ⟨items', q, hbodies, -⟩ := bodies_end hparsed h
    rw [file.compile_of_module hdecls (compile_of_prepared hprepared hbodies)] at hcompile
    cases hcompile
    have hcontinue : o'.continueOnError = o.continueOnError := by rw [ho]
    have hprepared' :
        Phase.runAll o' Phase.preparation (decls.map ({ decl := · })) { store := {} } = .ok (items, p) := by
      rw [preparation_options hcontinue]
      exact hprepared
    refine file.compile_of_module hdecls (compile_of_prepared hprepared' ?_)
    refine bodies_run_transfers ho (fun i hi f hf => ?_) (Phase.stays_runAll hprepared Store.grounded_initial).1 hbodies
      herrors (.refl _) fun i hi n hn => hpermitted _ rfl n ?_
    · have hmem : Decl.function f ∈ decls := by
        rw [← hitems, ← hf]
        exact List.mem_map_of_mem hi
      exact ⟨by rw [hparsed.untyped f hmem], hparsed.body f hmem⟩
    · unfold CompiledUnit.nodes
      simp only [Option.toList_some, List.flatMap_cons, List.flatMap_nil, List.append_nil]
      exact List.mem_flatMap.mpr ⟨_, List.mem_map_of_mem hi, hn⟩
  · rw [file.compile_of_refused o hrefused] at hcompile
    cases hcompile
    cases herrors

/-- The calls in a file that is accepted are permitted. -/
private theorem permitted_of_accepted (hcompile : file.compile o = .ok u) (herrors : u.errors = []) :
    u.Permitted o := by
  intro m hm n hn
  cases n with
  | builtinCall i name args =>
    intro first t w f hfirst ht hw hf
    obtain ⟨decls, hdecls, hparsed⟩ := SourceFile.declarations_of_compile hcompile hm
    obtain ⟨g, hg, hmem⟩ : ∃ g, .function g ∈ m.decls ∧ Expr.builtinCall i name args ∈ Expr.nodesBlock g.body := by
      simp only [CompiledUnit.nodes, hm, Option.toList_some, List.flatMap_cons, List.flatMap_nil, List.append_nil,
        List.mem_flatMap] at hn
      obtain ⟨d, hd, hn⟩ := hn
      cases d with
      | struct d => cases hn
      | function g => exact ⟨g, hd, hn⟩
    -- the call has a type, so it was visited
    have htyped : (Expr.builtinCall i name args).info.type.isSome = true := by
      obtain ⟨decls', m', errors, -, -, hcompile', -, hannotated⟩ := (file.compile_cases o).resolve_left fun h => by
        obtain ⟨d, hcompile'⟩ := h
        rw [hcompile] at hcompile'
        cases hcompile'
        cases hm
      rw [hcompile] at hcompile'
      cases hcompile'
      cases hm
      obtain ⟨_, _, _, _, -, -, hbody, -, -⟩ := hannotated herrors g hg
      obtain ⟨_, _, hn⟩ := hbody.of_mem_nodes _ (by rw [Expr.nodes]; exact hmem)
      cases hn with
      | builtinCall _ _ _ _ _ hi =>
        rw [show (Expr.builtinCall i name args).info.type = _ from hi.type]
        rfl
    obtain ⟨v, hreached, hfinds⟩ := reached_of_typed hdecls hcompile hm hg hmem htyped
    have hoptions := hreached.options
    have hgrounded := hreached.grounded
    have hstays := hreached.stays hdecls hcompile hm
    obtain ⟨σ, hsound⟩ := hreached.sound hparsed
    cases hfinds with
    | @expr c fr st st' e _ hrun hstop =>
      obtain ⟨b, hfresh⟩ := hsound.fresh
      rw [show (Visit.after ⟨c, fr, .expr e, st⟩) = st' by unfold Visit.after; dsimp only; rw [hrun]] at hstays
      cases Expr.walked hfresh.untyped hrun hstop with
      | builtinCall hfind hargs hi =>
        have hg₁ := (calm_attempt reads_findBuiltin.grounds).grounded hfind hgrounded
        have hg₂ := (calm_exprs _).grounded hargs hg₁
        have hend : st'.Toward m.store := ⟨hstop, hstays⟩
        have hstay := ((hend.back (calm_conclude grounds_builtin) hi).stays hg₂).2
        obtain ⟨_, _, hgives, -⟩ := conclude_inv hi hstop
        obtain ⟨first', rest, t', w', _, _, rfl, -, ht', hw', -, -, hfeature, -⟩ := yields_builtin.mp hgives.yields
        cases hfirst
        obtain rfl := Option.some.inj (ht.symm.trans ht')
        obtain rfl := Except.ok.inj (hw.symm.trans (hstay.loads hw'))
        rw [requiredFeature_eq (ofName?_of_attempt hfind)] at hf
        rw [← hoptions]
        exact hfeature f hf
  | _ => trivial

private theorem CompiledUnit.Permitted.more {features : List Feature} (h : u.Permitted o)
    (hmore : o.features ⊆ features) :
    u.Permitted { o with features } := by
  intro m hm n hn
  have hpermitted := h m hm n hn
  cases n with
  | builtinCall i name args =>
    intro first t w f hfirst ht hw hf
    exact List.contains_iff_mem.mpr (hmore (List.contains_iff_mem.mp (hpermitted first t w f hfirst ht hw hf)))
  | _ => trivial

end

/--
Features.  A file is accepted with some features exactly if it is accepted with all of them, and each builtin call has
the feature that it needs; then the compiled files are the same.  So with more features an accepted file stays accepted.
-/
theorem accepted_iff_permitted (file : SourceFile) (o : Options) :
    ∃ u v, file.compile o = .ok u ∧ file.compile { o with features := Feature.listed } = .ok v ∧
      (u.errors = [] ↔ v.errors = [] ∧ v.Permitted o) ∧ (u.errors = [] → v.errors = [] → v = u) ∧
      ∀ features, o.features ⊆ features → u.errors = [] → file.compile { o with features } = .ok u := by
  have hends : ∀ o : Options, ∃ u, file.compile o = .ok u := by
    intro o
    rcases file.compile_cases o with ⟨d, h⟩ | ⟨_, _, _, -, -, h, -⟩
    · exact ⟨_, h⟩
    · exact ⟨_, h⟩
  obtain ⟨u, hu⟩ := hends o
  obtain ⟨v, hv⟩ := hends { o with features := Feature.listed }
  have hforth : u.errors = [] → v = u := by
    intro herrors
    have hlisted : Options.SameBut o { o with features := Feature.listed } := rfl
    have hsame := compile_transfers hlisted hu herrors fun m hm n hn => n.permitted_listed o m.store
    rw [hv] at hsame
    exact Except.ok.inj hsame
  refine ⟨u, v, hu, hv, ⟨fun herrors => ?_, fun ⟨herrors, hpermitted⟩ => ?_⟩, fun herrors _ => hforth herrors, ?_⟩
  · rw [hforth herrors]
    exact ⟨herrors, permitted_of_accepted hu herrors⟩
  · have hback : Options.SameBut { o with features := Feature.listed } o := rfl
    have hsame := compile_transfers hback hv herrors hpermitted
    rw [hu] at hsame
    rw [Except.ok.inj hsame]
    exact herrors
  · intro features hmore herrors
    exact compile_transfers rfl hu herrors ((permitted_of_accepted hu herrors).more hmore)

end RainCheck
