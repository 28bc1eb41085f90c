import RainCheck.Proofs.Binding
import RainCheck.Proofs.Walked

/-!
# Nodes with a type

A node of a compiled tree that has a type was walked through (`Visit.Finds`), also in a function that is refused in the
end: behind a problem nothing more is written on a tree.
-/

namespace RainCheck

open Check RainCheck.Action
open Relation (ReflTransGen)

namespace Expr

mutual

/-- An expression and all expressions and blocks inside of it. -/
def nodes : Expr → List Expr
  | .integer i n => [.integer i n]
  | .float i x => [.float i x]
  | .boolean i b => [.boolean i b]
  | .identifier i name v => [.identifier i name v]
  | .member i base name span index => .member i base name span index :: nodes base
  | .call i callee args => .call i callee args :: (nodes callee ++ nodesAll args)
  | .builtinCall i name args => .builtinCall i name args :: nodesAll args
  | .unary i op operand => .unary i op operand :: nodes operand
  | .binary i op lhs rhs => .binary i op lhs rhs :: (nodes lhs ++ nodes rhs)
  | .assignment i target source => .assignment i target source :: (nodes target ++ nodes source)
  | .structLiteral i name inits => .structLiteral i name inits :: nodesFields inits
  | .letBinding i v declared init => .letBinding i v declared init :: nodes init
  | .block b => nodesBlock b
  | .ifElse i cond thenBlock other =>
    .ifElse i cond thenBlock other :: (nodes cond ++ nodesBlock thenBlock ++ nodesOption other)
  | .whileLoop i cond body => .whileLoop i cond body :: (nodes cond ++ nodesBlock body)
  | .endlessLoop i body => .endlessLoop i body :: nodesBlock body
  | .leaveLoop i => [.leaveLoop i]
  | .nextRound i => [.nextRound i]
  | .leaveFunction i result => .leaveFunction i result :: nodesOption result
  | .function i header body => .function i header body :: nodesBlock body

/-- The nodes of an expression that may be left out. -/
def nodesOption : Option Expr → List Expr
  | none => []
  | some e => nodes e

/-- The nodes of expressions one behind the other. -/
def nodesAll : List Expr → List Expr
  | [] => []
  | e :: rest => nodes e ++ nodesAll rest

/-- The nodes of the fields of a struct literal. -/
def nodesFields : List (FieldInit Expr) → List Expr
  | [] => []
  | ⟨_, _, value⟩ :: rest => nodes value ++ nodesFields rest

/-- A block and the nodes inside of it. -/
def nodesBlock : Block Expr → List Expr
  | ⟨i, frame, stmts, tail⟩ => .block ⟨i, frame, stmts, tail⟩ :: (nodesAll stmts ++ nodesOption tail)

end

variable {n : Expr}

theorem mem_nodesOption {e : Option Expr} : n ∈ nodesOption e ↔ ∃ x ∈ e, n ∈ x.nodes := by
  cases e <;> simp [nodesOption]

theorem mem_nodesAll {es : List Expr} : n ∈ nodesAll es ↔ ∃ e ∈ es, n ∈ e.nodes := by
  induction es with
  | nil => simp [nodesAll]
  | cons e rest ih => simp [nodesAll, ih]

theorem mem_nodesFields {inits : List (FieldInit Expr)} : n ∈ nodesFields inits ↔ ∃ f ∈ inits, n ∈ f.value.nodes := by
  induction inits with
  | nil => simp [nodesFields]
  | cons f rest ih => simp [nodesFields, ih]

theorem self_mem_nodes (e : Expr) : e ∈ e.nodes := by
  cases e with
  | block b =>
    obtain ⟨i, frame, stmts, tail⟩ := b
    simp [nodes, nodesBlock]
  | _ => simp [nodes]

theorem tail_mem_nodesBlock {b : Block Expr} {e : Expr} (h : b.tail = some e) : e ∈ nodesBlock b := by
  obtain ⟨i, frame, stmts, tail⟩ := b
  rw [nodesBlock]
  exact List.mem_cons_of_mem _ (List.mem_append_right _ (mem_nodesOption.mpr ⟨e, h, e.self_mem_nodes⟩))

/-- Nodes that come with all nodes inside of them. -/
def Closed (ns : List Expr) : Prop := ∀ n ∈ ns, n.nodes ⊆ ns

section

variable {e : Expr} {ns ns' : List Expr}

private theorem closed_nil : Closed [] := by simp [Closed]

private theorem Closed.append (h : Closed ns) (h' : Closed ns') : Closed (ns ++ ns') := by
  intro n hn
  rcases List.mem_append.mp hn with hn | hn
  · exact List.subset_append_of_subset_left _ (h n hn)
  · exact List.subset_append_of_subset_right _ (h' n hn)

private theorem Closed.node (h : Closed ns) (he : e.nodes = e :: ns) : Closed (e :: ns) := by
  intro n hn
  rcases List.mem_cons.mp hn with rfl | hn
  · rw [he]
    exact List.Subset.refl _
  · exact List.subset_cons_of_subset _ (h n hn)

end

mutual

/-- The nodes of a tree come with all nodes inside of them. -/
private theorem nodes_closed (e : Expr) : Closed e.nodes := by
  cases e with
  | integer | float | boolean | identifier | leaveLoop | nextRound =>
    rw [nodes]
    exact closed_nil.node (by rw [nodes])
  | member i base name span index =>
    rw [nodes]
    exact (nodes_closed base).node (by rw [nodes])
  | call i callee args =>
    rw [nodes]
    exact ((nodes_closed callee).append (nodesAll_closed args)).node (by rw [nodes])
  | builtinCall i name args =>
    rw [nodes]
    exact (nodesAll_closed args).node (by rw [nodes])
  | unary i op operand =>
    rw [nodes]
    exact (nodes_closed operand).node (by rw [nodes])
  | binary i op lhs rhs =>
    rw [nodes]
    exact ((nodes_closed lhs).append (nodes_closed rhs)).node (by rw [nodes])
  | assignment i target source =>
    rw [nodes]
    exact ((nodes_closed target).append (nodes_closed source)).node (by rw [nodes])
  | structLiteral i name inits =>
    rw [nodes]
    exact (nodesFields_closed inits).node (by rw [nodes])
  | letBinding i binding declared init =>
    rw [nodes]
    exact (nodes_closed init).node (by rw [nodes])
  | block b =>
    rw [nodes]
    exact nodesBlock_closed b
  | ifElse i cond thenBlock other =>
    rw [nodes]
    exact (((nodes_closed cond).append (nodesBlock_closed thenBlock)).append (nodesOption_closed other)).node
      (by rw [nodes])
  | whileLoop i cond body =>
    rw [nodes]
    exact ((nodes_closed cond).append (nodesBlock_closed body)).node (by rw [nodes])
  | endlessLoop i body =>
    rw [nodes]
    exact (nodesBlock_closed body).node (by rw [nodes])
  | leaveFunction i result =>
    rw [nodes]
    exact (nodesOption_closed result).node (by rw [nodes])
  | function i header body =>
    rw [nodes]
    exact (nodesBlock_closed body).node (by rw [nodes])

private theorem nodesOption_closed (e : Option Expr) : Closed (nodesOption e) := by
  match e with
  | none => exact closed_nil
  | some e => exact nodes_closed e

private theorem nodesAll_closed (es : List Expr) : Closed (nodesAll es) := by
  match es with
  | [] => exact closed_nil
  | e :: rest => exact (nodes_closed e).append (nodesAll_closed rest)

private theorem nodesFields_closed (inits : List (FieldInit Expr)) : Closed (nodesFields inits) := by
  match inits with
  | [] => exact closed_nil
  | ⟨_, _, value⟩ :: rest => exact (nodes_closed value).append (nodesFields_closed rest)

theorem nodesBlock_closed (b : Block Expr) : Closed (nodesBlock b) := by
  match b with
  | ⟨i, frame, stmts, tail⟩ =>
    rw [nodesBlock]
    exact ((nodesAll_closed stmts).append (nodesOption_closed tail)).node (by rw [nodes, nodesBlock])

end

/-- A node of a fresh tree is fresh, and mentions what the tree mentions. -/
theorem Fresh.node {e : Expr} {b : Bool} (hf : e.Fresh b) :
    ∀ n ∈ e.nodes, (∃ b, n.Fresh b) ∧ ∀ m ∈ n.mentions, m ∈ e.mentions := by
  -- a node of a part is as good as a node of the whole, if the whole mentions what the part does
  have part : ∀ {n x e : Expr}, (∃ b, n.Fresh b) ∧ (∀ m ∈ n.mentions, m ∈ x.mentions) →
      (∀ m ∈ x.mentions, m ∈ e.mentions) → (∃ b, n.Fresh b) ∧ ∀ m ∈ n.mentions, m ∈ e.mentions :=
    fun h hsub => ⟨h.1, fun m hm => hsub m (h.2 m hm)⟩
  induction hf with
  | integer | float | boolean | identifier | leaveLoop | nextRound =>
    intro n hn
    rw [nodes, List.mem_singleton] at hn
    subst hn
    exact ⟨⟨true, by constructor⟩, fun _ hm => hm⟩
  | member hbase ih =>
    rintro n (_ | ⟨_, hn⟩)
    · exact ⟨⟨true, .member hbase⟩, fun _ hm => hm⟩
    · exact part (ih n hn) fun _ hm => hm
  | call hcallee hargs ihcallee ihargs =>
    rintro n (_ | ⟨_, hn⟩)
    · exact ⟨⟨true, .call hcallee hargs⟩, fun _ hm => hm⟩
    rcases List.mem_append.mp hn with hn | hn
    · exact part (ihcallee n hn) fun _ hm => List.mem_append_left _ hm
    · obtain ⟨e, he, hn⟩ := mem_nodesAll.mp hn
      refine part (ihargs e he n hn) fun _ hm => List.mem_append_right _ ?_
      rw [mentionsAll_eq]
      exact List.mem_flatMap_of_mem he hm
  | builtinCall hargs ih =>
    rintro n (_ | ⟨_, hn⟩)
    · exact ⟨⟨true, .builtinCall hargs⟩, fun _ hm => hm⟩
    · obtain ⟨e, he, hn⟩ := mem_nodesAll.mp hn
      refine part (ih e he n hn) fun _ hm => List.mem_cons_of_mem _ ?_
      rw [mentionsAll_eq]
      exact List.mem_flatMap_of_mem he hm
  | unary hoperand ih =>
    rintro n (_ | ⟨_, hn⟩)
    · exact ⟨⟨true, .unary hoperand⟩, fun _ hm => hm⟩
    · exact part (ih n hn) fun _ hm => hm
  | binary hlhs hrhs ihlhs ihrhs =>
    rintro n (_ | ⟨_, hn⟩)
    · exact ⟨⟨true, .binary hlhs hrhs⟩, fun _ hm => hm⟩
    rcases List.mem_append.mp hn with hn | hn
    · exact part (ihlhs n hn) fun _ hm => List.mem_append_left _ hm
    · exact part (ihrhs n hn) fun _ hm => List.mem_append_right _ hm
  | assignment htarget hsource ihtarget ihsource =>
    rintro n (_ | ⟨_, hn⟩)
    · exact ⟨⟨true, .assignment htarget hsource⟩, fun _ hm => hm⟩
    rcases List.mem_append.mp hn with hn | hn
    · exact part (ihtarget n hn) fun _ hm => List.mem_append_left _ hm
    · exact part (ihsource n hn) fun _ hm => List.mem_append_right _ hm
  | structLiteral hfields ih =>
    rintro n (_ | ⟨_, hn⟩)
    · exact ⟨⟨true, .structLiteral hfields⟩, fun _ hm => hm⟩
    · obtain ⟨f, hf, hn⟩ := mem_nodesFields.mp hn
      refine part (ih f hf n hn) fun _ hm => List.mem_cons_of_mem _ ?_
      rw [mentionsFields_eq]
      exact List.mem_flatMap_of_mem hf hm
  | letBinding hinit ih =>
    rintro n (_ | ⟨_, hn⟩)
    · exact ⟨⟨true, .letBinding hinit⟩, fun _ hm => hm⟩
    · exact part (ih n hn) fun _ hm => List.mem_append_right _ hm
  | block hstmts htail ihstmts ihtail =>
    rintro n (_ | ⟨_, hn⟩)
    · exact ⟨⟨true, .block hstmts htail⟩, fun _ hm => hm⟩
    rcases List.mem_append.mp hn with hn | hn
    · obtain ⟨e, he, hn⟩ := mem_nodesAll.mp hn
      refine part (ihstmts e he n hn) fun _ hm => List.mem_append_left _ ?_
      rw [mentionsAll_eq]
      exact List.mem_flatMap_of_mem he hm
    · obtain ⟨e, rfl, hn⟩ := mem_nodesOption.mp hn
      exact part (ihtail e rfl n hn) fun _ hm => List.mem_append_right _ hm
  | ifElse hcond hthen hother ihcond ihthen ihother =>
    rintro n (_ | ⟨_, hn⟩)
    · exact ⟨⟨true, .ifElse hcond hthen hother⟩, fun _ hm => hm⟩
    rcases List.mem_append.mp hn with hn | hn
    · rcases List.mem_append.mp hn with hn | hn
      · exact part (ihcond n hn) fun _ hm => List.mem_append_left _ (List.mem_append_left _ hm)
      · exact part (ihthen n hn) fun _ hm => List.mem_append_left _ (List.mem_append_right _ hm)
    · obtain ⟨e, rfl, hn⟩ := mem_nodesOption.mp hn
      exact part (ihother e rfl n hn) fun _ hm => List.mem_append_right _ hm
  | whileLoop hcond hbody ihcond ihbody =>
    rintro n (_ | ⟨_, hn⟩)
    · exact ⟨⟨true, .whileLoop hcond hbody⟩, fun _ hm => hm⟩
    rcases List.mem_append.mp hn with hn | hn
    · exact part (ihcond n hn) fun _ hm => List.mem_append_left _ hm
    · exact part (ihbody n hn) fun _ hm => List.mem_append_right _ hm
  | endlessLoop hbody ih =>
    rintro n (_ | ⟨_, hn⟩)
    · exact ⟨⟨true, .endlessLoop hbody⟩, fun _ hm => hm⟩
    · exact part (ih n hn) fun _ hm => hm
  | leaveFunction hresult ih =>
    rintro n (_ | ⟨_, hn⟩)
    · exact ⟨⟨true, .leaveFunction hresult⟩, fun _ hm => hm⟩
    · obtain ⟨e, rfl, hn⟩ := mem_nodesOption.mp hn
      exact part (ih e rfl n hn) fun _ hm => hm
  | function hexported hparams hbody ih =>
    rintro n (_ | ⟨_, hn⟩)
    · exact ⟨⟨true, .function hexported hparams hbody⟩, fun _ hm => hm⟩
    · exact part (ih n hn) fun _ hm => List.mem_append_right _ hm

end Expr

/-! ### Visits of nodes -/

/-- A visit behind which the walk goes on, and the node it has found. -/
inductive Visit.Finds : Visit → Expr → Prop where
  | expr {c : Context} {fr : FrameId} {st st' : CheckState} {e n : Expr}
      (hrun : (Check.expr c fr e).run st = (n, st')) (hstop : st'.stop = none) : Finds ⟨c, fr, .expr e, st⟩ n
  | block {c : Context} {fr : FrameId} {st st' : CheckState} {b b' : Block Expr}
      (hrun : (Check.block c fr b).run st = (b', st')) (hstop : st'.stop = none) :
      Finds ⟨c, fr, .block b, st⟩ (.block b')

/-- A visit leads to one that has found a node. -/
def Visit.LeadsTo (v : Visit) (n : Expr) : Prop := ∃ w, ReflTransGen Visit.Step v w ∧ w.Finds n

section

variable {c : Context} {fr : FrameId} {st st' : CheckState} {n : Expr} {v w : Visit}

private theorem Visit.Finds.leadsTo (h : v.Finds n) : v.LeadsTo n := ⟨v, .refl, h⟩

private theorem Visit.Step.leadsTo (hstep : v.Step w) (h : w.LeadsTo n) : v.LeadsTo n := by
  obtain ⟨w', hsteps, hfinds⟩ := h
  exact ⟨w', .head hstep hsteps, hfinds⟩

/-- A rule that is refused writes nothing on its node. -/
private theorem conclude_alive {info i : Info} {rule : Action Info} (h : (conclude info rule).run st = (i, st'))
    (huntyped : info.type = none) (htyped : i.type.isSome = true) : st'.stop = none := by
  obtain ⟨o, st₁, hrun, hreturn⟩ := run_bind_inv h
  cases hreturn
  cases o with
  | some x => exact attempt_alive hrun
  | none =>
    rw [Option.getD_none, huntyped] at htyped
    cases htyped

/-- Nothing of a fresh tree has a type. -/
private theorem Expr.Fresh.not_typed {e : Expr} {b : Bool} (hf : e.Fresh b) (hn : n ∈ e.nodes)
    (htyped : n.info.type.isSome = true) :
    False := by
  obtain ⟨b', hfresh⟩ := (hf.node n hn).1
  rw [hfresh.untyped] at htyped
  cases htyped

private theorem not_typed_of_untyped {i : Info} (huntyped : i.type = none) (htyped : i.type.isSome = true) : False := by
  rw [huntyped] at htyped
  cases htyped

/-- A function whose body is walked through, as far as the walk has come. -/
theorem functionWith_cases {options : Options} {own : FrameId} {info i : Info} {header header' : Header}
    {body body' : Block Expr} (huntyped : info.type = none)
    (hrun : (functionWith options own info header body fun c frame => Check.block c frame body).run st =
      ((i, header', body'), st')) :
    (i = info ∧ body' = body) ∨ (i.type.isSome = true → st'.stop = none) ∧
      ∃ c fr st₁, Visit.Begins options own header body st ⟨c, fr, .block body, st₁⟩ ∧
        ((Check.block c fr body).run st₁).1 = body' := by
  rcases functionWith_run huntyped hrun with
    ⟨-, rfl, -, rfl⟩ | ⟨entry, params, st₁, st₂, st₃, henter, hparams, hbody, hi, -⟩
  · exact .inl ⟨rfl, rfl⟩
  · exact .inr ⟨conclude_alive hi huntyped, _, _, _, .body henter hparams, by rw [hbody]⟩

/-! ### All nodes with a type -/

variable (c fr) in
/-- The walk through an expression leads to all nodes with a type of what it gives. -/
def TracksExpr (e : Expr) : Prop :=
  ∀ ⦃st st' : CheckState⦄ ⦃e' n : Expr⦄, (Check.expr c fr e).run st = (e', st') → n ∈ e'.nodes →
    n.info.type.isSome = true → Visit.LeadsTo ⟨c, fr, .expr e, st⟩ n

variable (c fr) in
/-- The same for an expression that may be left out. -/
def TracksOption (e : Option Expr) : Prop :=
  ∀ ⦃st st' : CheckState⦄ ⦃e' : Option Expr⦄ ⦃n : Expr⦄, (Check.option c fr e).run st = (e', st') →
    n ∈ Expr.nodesOption e' → n.info.type.isSome = true → Visit.LeadsTo ⟨c, fr, .option e, st⟩ n

variable (c fr) in
/-- The same for expressions one behind the other. -/
def TracksAll (es : List Expr) : Prop :=
  ∀ ⦃st st' : CheckState⦄ ⦃es' : List Expr⦄ ⦃n : Expr⦄, (Check.exprs c fr es).run st = (es', st') →
    n ∈ Expr.nodesAll es' → n.info.type.isSome = true → Visit.LeadsTo ⟨c, fr, .exprs es, st⟩ n

variable (c fr) in
/-- The same for the fields of a struct literal. -/
def TracksFields (inits : List (FieldInit Expr)) : Prop :=
  ∀ ⦃owner : String⦄ ⦃declared : List (String × TypeId)⦄ ⦃seen : List String⦄ ⦃st st' : CheckState⦄
    ⦃inits' : List (FieldInit Expr)⦄ ⦃n : Expr⦄, (Check.fields c fr owner declared seen inits).run st = (inits', st') →
    n ∈ Expr.nodesFields inits' → n.info.type.isSome = true →
      Visit.LeadsTo ⟨c, fr, .fields owner declared seen inits, st⟩ n

variable (c fr) in
/-- The same for a block. -/
def TracksBlock (b : Block Expr) : Prop :=
  ∀ ⦃st st' : CheckState⦄ ⦃b' : Block Expr⦄ ⦃n : Expr⦄, (Check.block c fr b).run st = (b', st') →
    n ∈ Expr.nodesBlock b' → n.info.type.isSome = true → Visit.LeadsTo ⟨c, fr, .block b, st⟩ n

variable {b : Bool}

/-- Only an expression that the walk has come to gets types; it is found itself if the walk goes on behind it. -/
private theorem tracks_open {e : Expr} (hf : e.Fresh b)
    (h : ∀ ⦃st st' : CheckState⦄ ⦃e' n : Expr⦄, st.stop = none → (Check.expr c fr e).run st = (e', st') →
      (st'.stop = none → Visit.LeadsTo ⟨c, fr, .expr e, st⟩ e') → n ∈ e'.nodes → n.info.type.isSome = true →
      Visit.LeadsTo ⟨c, fr, .expr e, st⟩ n) : TracksExpr c fr e := by
  intro st st' e' n hrun hn htyped
  cases hopen : st.stop with
  | some why =>
    rw [Check.expr.eq_def, run_ended hopen rfl] at hrun
    cases hrun
    exact (hf.not_typed hn htyped).elim
  | none => exact h hopen hrun (fun hstop => (Visit.Finds.expr hrun hstop).leadsTo) hn htyped

private theorem tracks_identifier {info : Info} {name : String} {binding : Option Variable}
    (hf : (Expr.identifier info name binding).Fresh b) :
    TracksExpr c fr (.identifier info name binding) := by
  refine tracks_open hf fun st st' e' n hopen hrun hself hn htyped => ?_
  have huntyped := hf.untyped
  rw [Check.expr, run_open hopen (by exact skip_untyped huntyped)] at hrun
  obtain ⟨o, st₁, hrule, hrun⟩ := run_bind_inv hrun
  cases o with
  | none =>
    cases hrun
    exact (hf.not_typed hn htyped).elim
  | some found =>
    obtain ⟨i, _, hi, hreturn⟩ := run_bind_inv hrun
    cases hreturn
    obtain rfl := List.mem_singleton.mp hn
    exact hself (conclude_alive hi huntyped htyped)

private theorem tracks_member {info : Info} {base : Expr} {name : String} {nameSpan : Span} {index : Nat}
    (hf : (Expr.member info base name nameSpan index).Fresh b) (hbase : TracksExpr c fr base) :
    TracksExpr c fr (.member info base name nameSpan index) := by
  refine tracks_open hf fun st st' e' n hopen hrun hself hn htyped => ?_
  have huntyped := hf.untyped
  rw [Check.expr, run_open hopen (by exact skip_untyped huntyped)] at hrun
  obtain ⟨base', st₁, hrunBase, hrun⟩ := run_bind_inv hrun
  have hinside : n ∈ base'.nodes → Visit.LeadsTo ⟨c, fr, .expr (.member _ base name nameSpan index), st⟩ n := fun hn =>
    (Visit.Step.memberBase hopen huntyped).leadsTo (hbase hrunBase hn htyped)
  obtain ⟨o, st₂, hrule, hrun⟩ := run_bind_inv hrun
  cases o with
  | none =>
    cases hrun
    rcases List.mem_cons.mp hn with rfl | hn
    · exact (not_typed_of_untyped huntyped htyped).elim
    · exact hinside hn
  | some found =>
    obtain ⟨i, _, hi, hreturn⟩ := run_bind_inv hrun
    cases hreturn
    rcases List.mem_cons.mp hn with rfl | hn
    · exact hself (conclude_alive hi huntyped htyped)
    · exact hinside hn

private theorem tracks_call {info : Info} {callee : Expr} {args : List Expr} (hf : (Expr.call info callee args).Fresh b)
    (hcallee : TracksExpr c fr callee) (hargs : TracksAll c fr args) :
    TracksExpr c fr (.call info callee args) := by
  refine tracks_open hf fun st st' e' n hopen hrun hself hn htyped => ?_
  have huntyped := hf.untyped
  rw [Check.expr, run_open hopen (by exact skip_untyped huntyped)] at hrun
  obtain ⟨callee', st₁, hrunCallee, hrun⟩ := run_bind_inv hrun
  obtain ⟨args', st₂, hrunArgs, hrun⟩ := run_bind_inv hrun
  obtain ⟨i, _, hi, hreturn⟩ := run_bind_inv hrun
  cases hreturn
  rw [Expr.nodes, List.mem_cons, List.mem_append] at hn
  rcases hn with rfl | hn | hn
  · exact hself (conclude_alive hi huntyped htyped)
  · exact (Visit.Step.callee hopen huntyped).leadsTo (hcallee hrunCallee hn htyped)
  · exact (Visit.Step.arguments hopen huntyped hrunCallee).leadsTo (hargs hrunArgs hn htyped)

private theorem tracks_builtinCall {info : Info} {name : String} {args : List Expr}
    (hf : (Expr.builtinCall info name args).Fresh b) (hargs : TracksAll c fr args) :
    TracksExpr c fr (.builtinCall info name args) := by
  refine tracks_open hf fun st st' e' n hopen hrun hself hn htyped => ?_
  have huntyped := hf.untyped
  rw [Check.expr, run_open hopen (by exact skip_untyped huntyped)] at hrun
  obtain ⟨o, st₁, hfind, hrun⟩ := run_bind_inv hrun
  cases o with
  | none =>
    cases hrun
    exact (hf.not_typed hn htyped).elim
  | some builtin =>
    obtain ⟨args', st₂, hrunArgs, hrun⟩ := run_bind_inv hrun
    obtain ⟨i, _, hi, hreturn⟩ := run_bind_inv hrun
    cases hreturn
    rcases List.mem_cons.mp hn with rfl | hn
    · exact hself (conclude_alive hi huntyped htyped)
    · exact (Visit.Step.builtinArguments hopen huntyped hfind).leadsTo (hargs hrunArgs hn htyped)

private theorem tracks_unary {info : Info} {op : UnaryOp} {operand : Expr} (hf : (Expr.unary info op operand).Fresh b)
    (hoperand : TracksExpr c fr operand) :
    TracksExpr c fr (.unary info op operand) := by
  refine tracks_open hf fun st st' e' n hopen hrun hself hn htyped => ?_
  have huntyped := hf.untyped
  rw [Check.expr, run_open hopen (by exact skip_untyped huntyped)] at hrun
  obtain ⟨operand', st₁, hrunOperand, hrun⟩ := run_bind_inv hrun
  obtain ⟨i, _, hi, hreturn⟩ := run_bind_inv hrun
  cases hreturn
  rcases List.mem_cons.mp hn with rfl | hn
  · exact hself (conclude_alive hi huntyped htyped)
  · exact (Visit.Step.operand hopen huntyped).leadsTo (hoperand hrunOperand hn htyped)

private theorem tracks_binary {info : Info} {op : BinaryOp} {lhs rhs : Expr}
    (hf : (Expr.binary info op lhs rhs).Fresh b)
    (hlhs : TracksExpr c fr lhs) (hrhs : TracksExpr c fr rhs) :
    TracksExpr c fr (.binary info op lhs rhs) := by
  refine tracks_open hf fun st st' e' n hopen hrun hself hn htyped => ?_
  have huntyped := hf.untyped
  rw [Check.expr, run_open hopen (by exact skip_untyped huntyped)] at hrun
  obtain ⟨lhs', st₁, hrunLhs, hrun⟩ := run_bind_inv hrun
  obtain ⟨rhs', st₂, hrunRhs, hrun⟩ := run_bind_inv hrun
  obtain ⟨i, _, hi, hreturn⟩ := run_bind_inv hrun
  cases hreturn
  rw [Expr.nodes, List.mem_cons, List.mem_append] at hn
  rcases hn with rfl | hn | hn
  · exact hself (conclude_alive hi huntyped htyped)
  · exact (Visit.Step.left hopen huntyped).leadsTo (hlhs hrunLhs hn htyped)
  · exact (Visit.Step.right hopen huntyped hrunLhs).leadsTo (hrhs hrunRhs hn htyped)

private theorem tracks_assignment {info : Info} {target source : Expr}
    (hf : (Expr.assignment info target source).Fresh b)
    (htarget : TracksExpr c fr target) (hsource : TracksExpr c fr source) :
    TracksExpr c fr (.assignment info target source) := by
  refine tracks_open hf fun st st' e' n hopen hrun hself hn htyped => ?_
  have huntyped := hf.untyped
  rw [Check.expr, run_open hopen (by exact skip_untyped huntyped)] at hrun
  obtain ⟨target', st₁, hrunTarget, hrun⟩ := run_bind_inv hrun
  obtain ⟨source', st₂, hrunSource, hrun⟩ := run_bind_inv hrun
  obtain ⟨i, _, hi, hreturn⟩ := run_bind_inv hrun
  cases hreturn
  rw [Expr.nodes, List.mem_cons, List.mem_append] at hn
  rcases hn with rfl | hn | hn
  · exact hself (conclude_alive hi huntyped htyped)
  · exact (Visit.Step.target hopen huntyped).leadsTo (htarget hrunTarget hn htyped)
  · exact (Visit.Step.source hopen huntyped hrunTarget).leadsTo (hsource hrunSource hn htyped)

private theorem tracks_structLiteral {info : Info} {name : String} {inits : List (FieldInit Expr)}
    (hf : (Expr.structLiteral info name inits).Fresh b) (hinits : TracksFields c fr inits) :
    TracksExpr c fr (.structLiteral info name inits) := by
  refine tracks_open hf fun st st' e' n hopen hrun hself hn htyped => ?_
  have huntyped := hf.untyped
  rw [Check.expr, run_open hopen (by exact skip_untyped huntyped)] at hrun
  obtain ⟨o, st₁, hstruct, hrun⟩ := run_bind_inv hrun
  cases o with
  | none =>
    cases hrun
    exact (hf.not_typed hn htyped).elim
  | some found =>
    obtain ⟨type, owner, declared⟩ := found
    obtain ⟨inits', st₂, hrunInits, hrun⟩ := run_bind_inv hrun
    obtain ⟨i, _, hi, hreturn⟩ := run_bind_inv hrun
    cases hreturn
    rcases List.mem_cons.mp hn with rfl | hn
    · exact hself (conclude_alive hi huntyped htyped)
    · exact (Visit.Step.literalFields hopen huntyped hstruct).leadsTo (hinits hrunInits hn htyped)

private theorem tracks_letBinding {info : Info} {binding : Holder Variable} {declared : Option TypeExpr} {init : Expr}
    (hf : (Expr.letBinding info binding declared init).Fresh b) (hinit : TracksExpr c fr init) :
    TracksExpr c fr (.letBinding info binding declared init) := by
  refine tracks_open hf fun st st' e' n hopen hrun hself hn htyped => ?_
  have huntyped := hf.untyped
  rw [Check.expr, run_open hopen (by exact skip_untyped huntyped)] at hrun
  obtain ⟨init', st₁, hrunInit, hrun⟩ := run_bind_inv hrun
  have hinside :
      ∀ {v}, n ∈ init'.nodes → Visit.LeadsTo ⟨c, fr, .expr (.letBinding _ v declared init), st⟩ n := fun hn =>
    (Visit.Step.initial hopen huntyped).leadsTo (hinit hrunInit hn htyped)
  obtain ⟨o, st₂, hrule, hrun⟩ := run_bind_inv hrun
  cases o with
  | none =>
    cases hrun
    rcases List.mem_cons.mp hn with rfl | hn
    · exact (not_typed_of_untyped huntyped htyped).elim
    · exact hinside hn
  | some v =>
    obtain ⟨o, st₃, hdeclare, hrun⟩ := run_bind_inv hrun
    cases o with
    | none =>
      cases hrun
      rcases List.mem_cons.mp hn with rfl | hn
      · exact (not_typed_of_untyped huntyped htyped).elim
      · exact hinside hn
    | some held =>
      obtain ⟨i, _, hi, hreturn⟩ := run_bind_inv hrun
      cases hreturn
      rcases List.mem_cons.mp hn with rfl | hn
      · exact hself (conclude_alive hi huntyped htyped)
      · exact hinside hn

private theorem tracks_blockExpr {blk : Block Expr} (hf : (Expr.block blk).Fresh b) (hblock : TracksBlock c fr blk) :
    TracksExpr c fr (.block blk) := by
  refine tracks_open hf fun st st' e' n hopen hrun hself hn htyped => ?_
  have huntyped := hf.untyped
  rw [Check.expr, run_open hopen (by exact skip_untyped huntyped)] at hrun
  obtain ⟨blk', _, hrunBlock, hreturn⟩ := run_bind_inv hrun
  cases hreturn
  exact (Visit.Step.block hopen huntyped).leadsTo (hblock hrunBlock hn htyped)

private theorem tracks_ifElse {info : Info} {cond : Expr} {thenBlock : Block Expr} {other : Option Expr}
    (hf : (Expr.ifElse info cond thenBlock other).Fresh b) (hcond : TracksExpr c fr cond)
    (hthen : TracksBlock c fr thenBlock) (hother : TracksOption c fr other) :
    TracksExpr c fr (.ifElse info cond thenBlock other) := by
  refine tracks_open hf fun st st' e' n hopen hrun hself hn htyped => ?_
  have huntyped := hf.untyped
  rw [Check.expr, run_open hopen (by exact skip_untyped huntyped)] at hrun
  obtain ⟨cond', st₁, hrunCond, hrun⟩ := run_bind_inv hrun
  obtain ⟨_, st₂, hbool, hrun⟩ := run_bind_inv hrun
  obtain ⟨then', st₃, hrunThen, hrun⟩ := run_bind_inv hrun
  obtain ⟨other', st₄, hrunOther, hrun⟩ := run_bind_inv hrun
  obtain ⟨i, _, hi, hreturn⟩ := run_bind_inv hrun
  cases hreturn
  rw [Expr.nodes, List.mem_cons, List.mem_append, List.mem_append] at hn
  rcases hn with rfl | (hn | hn) | hn
  · exact hself (conclude_alive hi huntyped htyped)
  · exact (Visit.Step.ifCondition hopen huntyped).leadsTo (hcond hrunCond hn htyped)
  · exact (Visit.Step.thenBlock hopen huntyped hrunCond hbool).leadsTo
      (hthen hrunThen hn htyped)
  · exact (Visit.Step.elseBranch hopen huntyped hrunCond hbool hrunThen).leadsTo
      (hother hrunOther hn htyped)

private theorem tracks_whileLoop {info : Info} {cond : Expr} {body : Block Expr}
    (hf : (Expr.whileLoop info cond body).Fresh b) (hcond : TracksExpr c fr cond) (hbody : TracksBlock c fr body) :
    TracksExpr c fr (.whileLoop info cond body) := by
  refine tracks_open hf fun st st' e' n hopen hrun hself hn htyped => ?_
  have huntyped := hf.untyped
  rw [Check.expr, run_open hopen (by exact skip_untyped huntyped)] at hrun
  obtain ⟨cond', st₁, hrunCond, hrun⟩ := run_bind_inv hrun
  obtain ⟨_, st₂, hbool, hrun⟩ := run_bind_inv hrun
  obtain ⟨_, _, henter, hrun⟩ := run_bind_inv hrun
  cases henter
  obtain ⟨body', st₃, hrunBody, hrun⟩ := run_bind_inv hrun
  obtain ⟨_, _, hexit, hrun⟩ := run_bind_inv hrun
  obtain ⟨i, _, hi, hreturn⟩ := run_bind_inv hrun
  cases hreturn
  rw [Expr.nodes, List.mem_cons, List.mem_append] at hn
  rcases hn with rfl | hn | hn
  · exact hself (conclude_alive hi huntyped htyped)
  · exact (Visit.Step.whileCondition hopen huntyped).leadsTo (hcond hrunCond hn htyped)
  · exact (Visit.Step.whileBody hopen huntyped hrunCond hbool).leadsTo (hbody hrunBody hn htyped)

private theorem tracks_endlessLoop {info : Info} {body : Block Expr} (hf : (Expr.endlessLoop info body).Fresh b)
    (hbody : TracksBlock c fr body) :
    TracksExpr c fr (.endlessLoop info body) := by
  refine tracks_open hf fun st st' e' n hopen hrun hself hn htyped => ?_
  have huntyped := hf.untyped
  rw [Check.expr, run_open hopen (by exact skip_untyped huntyped)] at hrun
  obtain ⟨_, _, henter, hrun⟩ := run_bind_inv hrun
  cases henter
  obtain ⟨body', st₁, hrunBody, hrun⟩ := run_bind_inv hrun
  obtain ⟨_, _, hexit, hrun⟩ := run_bind_inv hrun
  obtain ⟨i, _, hi, hreturn⟩ := run_bind_inv hrun
  cases hreturn
  rcases List.mem_cons.mp hn with rfl | hn
  · exact hself (conclude_alive hi huntyped htyped)
  · exact (Visit.Step.endlessBody hopen huntyped).leadsTo (hbody hrunBody hn htyped)

private theorem tracks_jump {make : Info → Expr} {keyword : String} {note : Check Unit} {info : Info}
    (hf : (make info).Fresh b)
    (hmake : ∀ i, (make i).nodes = [make i] ∧ (make i).info = i)
    (hexpr : Check.expr c fr (make info) = jump make keyword note info) : TracksExpr c fr (make info) := by
  refine tracks_open hf fun st st' e' n hopen hrun hself hn htyped => ?_
  have huntyped : info.type = none := (hmake info).2 ▸ hf.untyped
  rw [hexpr, jump, run_open hopen (by exact skip_untyped huntyped)] at hrun
  obtain ⟨_, _, hget, hrun⟩ := run_bind_inv hrun
  obtain ⟨_, _, hnote, hrun⟩ := run_bind_inv hrun
  obtain ⟨i, _, hi, hreturn⟩ := run_bind_inv hrun
  cases hreturn
  rw [(hmake i).1] at hn
  obtain rfl := List.mem_singleton.mp hn
  rw [(hmake i).2] at htyped
  exact hself (conclude_alive hi huntyped htyped)

private theorem tracks_leaveFunction {info : Info} {result : Option Expr}
    (hf : (Expr.leaveFunction info result).Fresh b)
    (hresult : TracksOption c fr result) :
    TracksExpr c fr (.leaveFunction info result) := by
  refine tracks_open hf fun st st' e' n hopen hrun hself hn htyped => ?_
  have huntyped := hf.untyped
  rw [Check.expr, run_open hopen (by exact skip_untyped huntyped)] at hrun
  by_cases hreturns : c.returns.isSome = true
  · rw [if_pos hreturns] at hrun
    obtain ⟨result', st₁, hrunResult, hrun⟩ := run_bind_inv hrun
    obtain ⟨i, _, hi, hreturn⟩ := run_bind_inv hrun
    cases hreturn
    rcases List.mem_cons.mp hn with rfl | hn
    · exact hself (conclude_alive hi huntyped htyped)
    · exact (Visit.Step.result hopen huntyped hreturns).leadsTo (hresult hrunResult hn htyped)
  · -- outside of a function the result is left alone
    rw [if_neg hreturns] at hrun
    obtain ⟨_, _, hpure, hrun⟩ := run_bind_inv hrun
    cases hpure
    obtain ⟨i, _, hi, hreturn⟩ := run_bind_inv hrun
    cases hreturn
    rcases List.mem_cons.mp hn with rfl | hn
    · exact hself (conclude_alive hi huntyped htyped)
    · exact (hf.not_typed (List.mem_cons_of_mem _ hn) htyped).elim

private theorem tracks_function {info : Info} {header : Header} {body : Block Expr}
    (hf : (Expr.function info header body).Fresh b) (hbody : ∀ c fr, TracksBlock c fr body) :
    TracksExpr c fr (.function info header body) := by
  refine tracks_open hf fun st st' e' n hopen hrun hself hn htyped => ?_
  have huntyped := hf.untyped
  rw [Check.expr, run_open hopen (by exact skip_untyped huntyped)] at hrun
  obtain ⟨o, st₁, hnested, hrun⟩ := run_bind_inv hrun
  cases o with
  | none =>
    cases hrun
    exact (hf.not_typed hn htyped).elim
  | some own =>
    obtain ⟨⟨i, header', body'⟩, st₂, hfunction, hreturn⟩ := run_bind_inv hrun
    cases hreturn
    rcases functionWith_cases huntyped hfunction with ⟨rfl, rfl⟩ | ⟨halive, c', fr', st₃, hbegins, hbody'⟩
    · rcases List.mem_cons.mp hn with rfl | hn
      · exact (not_typed_of_untyped huntyped htyped).elim
      · exact (hf.not_typed (List.mem_cons_of_mem _ hn) htyped).elim
    · rcases List.mem_cons.mp hn with rfl | hn
      · exact hself (halive htyped)
      · subst hbody'
        exact (Visit.Step.nested hopen huntyped hnested hbegins).leadsTo (hbody c' fr' rfl hn htyped)

private theorem tracks_none : TracksOption c fr none := by
  intro st st' e' n hrun hn htyped
  rw [Check.option] at hrun
  cases hrun
  cases hn

private theorem tracks_some {e : Expr} (he : TracksExpr c fr e) : TracksOption c fr (some e) := by
  intro st st' e' n hrun hn htyped
  rw [Check.option] at hrun
  obtain ⟨e'', _, hrunExpr, hreturn⟩ := run_bind_inv hrun
  cases hreturn
  exact Visit.Step.present.leadsTo (he hrunExpr hn htyped)

private theorem tracks_nil : TracksAll c fr [] := by
  intro st st' es' n hrun hn htyped
  rw [Check.exprs] at hrun
  cases hrun
  cases hn

private theorem tracks_cons {e : Expr} {rest : List Expr} (he : TracksExpr c fr e) (hrest : TracksAll c fr rest) :
    TracksAll c fr (e :: rest) := by
  intro st st' es' n hrun hn htyped
  rw [Check.exprs] at hrun
  obtain ⟨e'', st₁, hrunHead, hrun⟩ := run_bind_inv hrun
  obtain ⟨rest', _, hrunRest, hreturn⟩ := run_bind_inv hrun
  cases hreturn
  rcases List.mem_append.mp hn with hn | hn
  · exact Visit.Step.head.leadsTo (he hrunHead hn htyped)
  · exact (Visit.Step.tail hrunHead).leadsTo (hrest hrunRest hn htyped)

private theorem tracks_noFields : TracksFields c fr [] := by
  intro owner declared seen st st' inits' n hrun hn htyped
  rw [Check.fields] at hrun
  cases hrun
  cases hn

private theorem tracks_field {name : String} {span : Span} {value : Expr} {rest : List (FieldInit Expr)}
    (hf : ∀ f ∈ (⟨name, span, value⟩ : FieldInit Expr) :: rest, f.value.Fresh false) (hvalue : TracksExpr c fr value)
    (hrest : TracksFields c fr rest) : TracksFields c fr (⟨name, span, value⟩ :: rest) := by
  intro owner declared seen st st' inits' n hrun hn htyped
  rw [Check.fields] at hrun
  obtain ⟨o, st₁, hfield, hrun⟩ := run_bind_inv hrun
  cases o with
  | none =>
    cases hrun
    obtain ⟨f, hmem, hn⟩ := Expr.mem_nodesFields.mp hn
    exact ((hf f hmem).not_typed hn htyped).elim
  | some type =>
    obtain ⟨value', st₂, hrunValue, hrun⟩ := run_bind_inv hrun
    obtain ⟨_, st₃, hfits, hrun⟩ := run_bind_inv hrun
    obtain ⟨rest', _, hrunRest, hreturn⟩ := run_bind_inv hrun
    cases hreturn
    rcases List.mem_append.mp hn with hn | hn
    · exact (Visit.Step.fieldValue hfield).leadsTo (hvalue hrunValue hn htyped)
    · exact (Visit.Step.laterFields hfield hrunValue hfits).leadsTo (hrest hrunRest hn htyped)

private theorem tracks_block {info : Info} {entered : Option FrameId} {stmts : List Expr} {tail : Option Expr}
    (hf : (Expr.block ⟨info, entered, stmts, tail⟩).Fresh false) (hstmts : ∀ inner, TracksAll c inner stmts)
    (htail : ∀ inner, TracksOption c inner tail) : TracksBlock c fr ⟨info, entered, stmts, tail⟩ := by
  intro st st' b' n hrun hn htyped
  have huntyped : info.type = none := hf.untyped
  cases hopen : st.stop with
  | some why =>
    rw [Check.block.eq_def, run_ended hopen rfl] at hrun
    cases hrun
    exact (hf.not_typed hn htyped).elim
  | none =>
    have hself :
        st'.stop = none → Visit.LeadsTo ⟨c, fr, .block ⟨info, entered, stmts, tail⟩, st⟩ (.block b') := fun hstop =>
      (Visit.Finds.block hrun hstop).leadsTo
    rw [Check.block, run_open hopen (skip_untyped huntyped)] at hrun
    obtain ⟨o, st₁, hnest, hrun⟩ := run_bind_inv hrun
    cases o with
    | none =>
      cases hrun
      exact (hf.not_typed hn htyped).elim
    | some inner =>
      obtain ⟨stmts', st₂, hrunStmts, hrun⟩ := run_bind_inv hrun
      obtain ⟨tail', st₃, hrunTail, hrun⟩ := run_bind_inv hrun
      obtain ⟨i, _, hi, hreturn⟩ := run_bind_inv hrun
      cases hreturn
      rw [Expr.nodesBlock, List.mem_cons, List.mem_append] at hn
      rcases hn with rfl | hn | hn
      · exact hself (conclude_alive hi huntyped htyped)
      · exact (Visit.Step.statements hopen huntyped hnest).leadsTo (hstmts inner hrunStmts hn htyped)
      · exact (Visit.Step.blockTail hopen huntyped hnest hrunStmts).leadsTo (htail inner hrunTail hn htyped)

/-- A literal has no other nodes. -/
private theorem tracks_constant {e : Expr} {info : Info} {a : Action Info} {m : Info → Expr} (hf : e.Fresh b)
    (huntyped : info.type = none) (hmake : ∀ i, (m i).nodes = [m i] ∧ (m i).info = i)
    (hexpr : ∀ st : CheckState, st.stop = none →
      (Check.expr c fr e).run st = (do return m (← conclude info a)).run st) : TracksExpr c fr e := by
  refine tracks_open hf fun st st' e' n hopen hrun hself hn htyped => ?_
  rw [hexpr st hopen] at hrun
  obtain ⟨i, _, hi, hreturn⟩ := run_bind_inv hrun
  cases hreturn
  rw [(hmake i).1] at hn
  obtain rfl := List.mem_singleton.mp hn
  rw [(hmake i).2] at htyped
  exact hself (conclude_alive hi huntyped htyped)

mutual

/-- The walk through a fresh expression leads to all nodes with a type of what it gives. -/
private theorem tracks_expr (e : Expr) {b : Bool} (hf : e.Fresh b) (c : Context) (fr : FrameId) :
    TracksExpr c fr e := by
  have huntyped := hf.untyped
  cases e with
  | integer info k =>
    refine tracks_constant (a := pure (info.fold TypeId.i32 (.i32 k))) (m := fun i => .integer i k) hf
      huntyped (fun i => ⟨rfl, rfl⟩) fun st hopen => ?_
    rw [Check.expr, run_open hopen (by exact skip_untyped huntyped)]
    rfl
  | float info x =>
    refine tracks_constant (a := pure (info.fold TypeId.f64 (.f64 x))) (m := fun i => .float i x) hf
      huntyped (fun i => ⟨rfl, rfl⟩) fun st hopen => ?_
    rw [Check.expr, run_open hopen (by exact skip_untyped huntyped)]
    rfl
  | boolean info x =>
    refine tracks_constant (a := pure (info.fold TypeId.bool (.bool x))) (m := fun i => .boolean i x) hf
      huntyped (fun i => ⟨rfl, rfl⟩) fun st hopen => ?_
    rw [Check.expr, run_open hopen (by exact skip_untyped huntyped)]
    rfl
  | identifier info name binding => exact tracks_identifier hf
  | member info base name nameSpan index =>
    have hbase : base.Fresh false := by cases hf; assumption
    exact tracks_member hf (tracks_expr base hbase c fr)
  | call info callee args =>
    obtain ⟨hcallee, hargs⟩ : callee.Fresh false ∧ ∀ e ∈ args, e.Fresh false := by cases hf; exact ⟨‹_›, ‹_›⟩
    exact tracks_call hf (tracks_expr callee hcallee c fr) (tracks_exprs args hargs c fr)
  | builtinCall info name args =>
    have hargs : ∀ e ∈ args, e.Fresh false := by cases hf; assumption
    exact tracks_builtinCall hf (tracks_exprs args hargs c fr)
  | unary info op operand =>
    have hoperand : operand.Fresh false := by cases hf; assumption
    exact tracks_unary hf (tracks_expr operand hoperand c fr)
  | binary info op lhs rhs =>
    obtain ⟨hlhs, hrhs⟩ : lhs.Fresh false ∧ rhs.Fresh false := by cases hf; exact ⟨‹_›, ‹_›⟩
    exact tracks_binary hf (tracks_expr lhs hlhs c fr) (tracks_expr rhs hrhs c fr)
  | assignment info target source =>
    obtain ⟨htarget, hsource⟩ : target.Fresh false ∧ source.Fresh false := by cases hf; exact ⟨‹_›, ‹_›⟩
    exact tracks_assignment hf (tracks_expr target htarget c fr) (tracks_expr source hsource c fr)
  | structLiteral info name inits =>
    have hinits : ∀ f ∈ inits, f.value.Fresh false := by cases hf; assumption
    exact tracks_structLiteral hf (tracks_fields inits hinits c fr)
  | letBinding info binding declared init =>
    have hinit : init.Fresh false := by cases hf; assumption
    exact tracks_letBinding hf (tracks_expr init hinit c fr)
  | block blk =>
    have hblock : (Expr.block blk).Fresh false := hf.value rfl
    exact tracks_blockExpr hf (tracks_blockOf blk hblock c fr)
  | ifElse info cond thenBlock other =>
    obtain ⟨hcond, hthen, hother⟩ :
        cond.Fresh false ∧ (Expr.block thenBlock).Fresh false ∧ ∀ e ∈ other, e.Fresh false := by
      cases hf; exact ⟨‹_›, ‹_›, ‹_›⟩
    exact tracks_ifElse hf (tracks_expr cond hcond c fr) (tracks_blockOf thenBlock hthen c fr)
      (tracks_option other hother c fr)
  | whileLoop info cond body =>
    obtain ⟨hcond, hbody⟩ : cond.Fresh false ∧ (Expr.block body).Fresh false := by cases hf; exact ⟨‹_›, ‹_›⟩
    exact tracks_whileLoop hf (tracks_expr cond hcond c fr) (tracks_blockOf body hbody c fr)
  | endlessLoop info body =>
    have hbody : (Expr.block body).Fresh false := by cases hf; assumption
    exact tracks_endlessLoop hf (tracks_blockOf body hbody c fr)
  | leaveLoop info => exact tracks_jump hf (fun i => ⟨rfl, rfl⟩) expr_leaveLoop
  | nextRound info => exact tracks_jump hf (fun i => ⟨rfl, rfl⟩) expr_nextRound
  | leaveFunction info result =>
    have hresult : ∀ e ∈ result, e.Fresh false := by cases hf; assumption
    exact tracks_leaveFunction hf (tracks_option result hresult c fr)
  | function info header body =>
    have hbody : (Expr.block body).Fresh false := by cases hf; assumption
    exact tracks_function hf fun c fr => tracks_blockOf body hbody c fr

private theorem tracks_option (e : Option Expr) (hf : ∀ x ∈ e, x.Fresh false) (c : Context) (fr : FrameId) :
    TracksOption c fr e := by
  match e with
  | none => exact tracks_none
  | some e => exact tracks_some (tracks_expr e (hf e rfl) c fr)

private theorem tracks_exprs (es : List Expr) {b : Bool} (hf : ∀ e ∈ es, e.Fresh b) (c : Context) (fr : FrameId) :
    TracksAll c fr es := by
  match es with
  | [] => exact tracks_nil
  | e :: rest =>
    exact tracks_cons (tracks_expr e (hf e List.mem_cons_self) c fr)
      (tracks_exprs rest (fun x hx => hf x (List.mem_cons_of_mem _ hx)) c fr)

private theorem tracks_fields (inits : List (FieldInit Expr)) (hf : ∀ f ∈ inits, f.value.Fresh false) (c : Context)
    (fr : FrameId) : TracksFields c fr inits := by
  match inits with
  | [] => exact tracks_noFields
  | ⟨name, span, value⟩ :: rest =>
    have hvalue : value.Fresh false := hf ⟨name, span, value⟩ List.mem_cons_self
    exact tracks_field hf (tracks_expr value hvalue c fr)
      (tracks_fields rest (fun f h => hf f (List.mem_cons_of_mem _ h)) c fr)

private theorem tracks_blockOf (b : Block Expr) (hf : (Expr.block b).Fresh false) (c : Context) (fr : FrameId) :
    TracksBlock c fr b := by
  match b with
  | ⟨info, entered, stmts, tail⟩ =>
    obtain ⟨hstmts, htail⟩ : (∀ e ∈ stmts, e.Fresh true) ∧ ∀ e ∈ tail, e.Fresh false := by cases hf; exact ⟨‹_›, ‹_›⟩
    exact tracks_block hf (fun inner => tracks_exprs stmts hstmts c inner) fun inner => tracks_option tail htail c inner

end

end

/-! ### Compiled modules -/

/-- The nodes of a declaration. -/
def Decl.nodes : Decl → List Expr
  | .struct _ => []
  | .function f => Expr.nodesBlock f.body

/-- The nodes of a compiled file, one declaration after the other. -/
def CompiledUnit.nodes (u : CompiledUnit) : List Expr := u.module.toList.flatMap fun m => m.decls.flatMap Decl.nodes

section

variable {options : Options} {decls : List Decl} {file : SourceFile} {u : CompiledUnit} {m : Module} {f : FunctionDecl}

/-- A declaration that a phase gives comes from one that it was given. -/
theorem Phase.mem_run_inv {phase : Phase} {items items' : List Item} {item' : Item} {p r : Progress}
    (h : phase.run options items p = .ok (items', r)) (hi : item' ∈ items') :
    ∃ before item behind done q q', items = before ++ item :: behind ∧ phase.run options before p = .ok (done, q) ∧
      phase.step options item q = .ok (item', q') := by
  induction items generalizing p items' with
  | nil =>
    cases h
    cases hi
  | cons item rest ih =>
    obtain ⟨first, others, p₁, hstep, hrun, rfl⟩ := run_cons_inv h
    rcases List.mem_cons.mp hi with rfl | hi
    · exact ⟨[], item, rest, [], p, p₁, rfl, rfl, hstep⟩
    · obtain ⟨before, item₁, behind, done, q, q', rfl, hbefore, hlater⟩ := ih hrun hi
      refine ⟨item :: before, item₁, behind, first :: done, q, q', rfl, ?_, hlater⟩
      rw [run_cons, hstep, ok_bind]
      dsimp only
      rw [hbefore]
      rfl

/-- The text of a module that is compiled can be read. -/
theorem SourceFile.declarations_of_compile {file : SourceFile} {options : Options} {u : CompiledUnit} {m : Module}
    (hcompile : file.compile options = .ok u) (hm : u.module = some m) :
    ∃ decls, file.declarations = .ok decls ∧ Parsed decls := by
  rcases file.compile_cases options with ⟨d, hcompile'⟩ | ⟨decls, _, _, hdecls, hparsed, -⟩
  · rw [hcompile] at hcompile'
    cases hcompile'
    cases hm
  · exact ⟨decls, hdecls, hparsed⟩

/-- The declarations of a compiled module are those that the last phase gives. -/
theorem SourceFile.items_of_compile (hdecls : file.declarations = .ok decls) (hcompile : file.compile options = .ok u)
    (hm : u.module = some m) :
    ∃ items p items' q, Phase.runAll options Phase.preparation (decls.map ({ decl := · }))
      { store := {} } = .ok (items, p) ∧
      items.map (·.decl) = decls ∧ Phase.bodies.run options items p = .ok (items', q) ∧
      m.decls = items'.map (·.decl) ∧ m.store = q.store := by
  have hparsed := file.parsed_of_declarations hdecls
  obtain ⟨items, p, hprepared, hitems, h⟩ := preparation_ends options hparsed
  obtain ⟨items', q, hbodies, -⟩ := bodies_end hparsed h
  simp only [SourceFile.compile, hdecls, compile_of_prepared hprepared hbodies, ok_bind] at hcompile
  cases hcompile
  cases hm
  exact ⟨items, p, items', q, hprepared, hitems, hbodies, rfl, rfl⟩

/-- The store behind a function of the module that is checked. -/
theorem bodies_step_store {item' : Item} {q q' : Progress} (hrunning : q.halted = false)
    (hstep : Phase.bodies.step options ⟨.function f, false⟩ q = .ok (item', q')) :
    q'.store = ((Check.functionWith options FrameId.module f.info f.header f.body
      fun c frame => Check.block c frame f.body).run { store := q.store }).2.store := by
  obtain ⟨r, st, hrun⟩ : ∃ r st, (Check.functionWith options FrameId.module f.info f.header f.body
    fun c frame => Check.block c frame f.body).run { store := q.store } = (r, st) := ⟨_, _, rfl⟩
  simp only [Phase.step, hrunning, Bool.or_self, Bool.false_eq_true, if_false, Phase.apply, Phase.checkBody,
    check_of_run hrun] at hstep
  rw [hrun]
  cases hstop : st.stop with
  | none =>
    rw [hstop] at hstep
    cases hstep
    rfl
  | some why =>
    rw [hstop] at hstep
    cases why <;> cases hstep
    rfl

/-- What the last phase does with a function: it is left alone, or its body is checked. -/
theorem bodies_step_cases {item item' : Item} {q q' : Progress} (h : Phase.bodies.step options item q = .ok (item', q'))
    (hf : item'.decl = .function f) :
    item'.decl = item.decl ∨ q.halted = false ∧ ∃ f₀ st, item = ⟨.function f₀, false⟩ ∧
      (Check.functionWith options FrameId.module f₀.info f₀.header f₀.body
        fun c frame => Check.block c frame f₀.body).run { store := q.store } = ((f.info, f.header, f.body), st) := by
  obtain ⟨decl, failed⟩ := item
  by_cases hskip : q.halted = true ∨ failed = true
  · rw [Phase.step_skip hskip] at h
    cases h
    exact .inl rfl
  · obtain ⟨hrunning, rfl⟩ : q.halted = false ∧ failed = false := by simpa using hskip
    cases decl with
    | struct d =>
      simp only [Phase.step, hrunning, Bool.or_self, Bool.false_eq_true, if_false, Phase.apply] at h
      cases h
      exact .inl rfl
    | function f₀ =>
      obtain ⟨r, st, hrun⟩ : ∃ r st, (Check.functionWith options FrameId.module f₀.info f₀.header f₀.body
        fun c frame => Check.block c frame f₀.body).run { store := q.store } = (r, st) := ⟨_, _, rfl⟩
      refine .inr ⟨hrunning, f₀, st, rfl, ?_⟩
      have hdecl : item'.decl = .function ⟨r.1, r.2.1, r.2.2⟩ := by
        simp only [Phase.step, hrunning, Bool.or_self, Bool.false_eq_true, if_false, Phase.apply, Phase.checkBody,
          check_of_run hrun] at h
        cases hstop : st.stop with
        | none =>
          rw [hstop] at h
          cases h
          rfl
        | some why =>
          rw [hstop] at h
          cases why <;> cases h
          rfl
      rw [hf] at hdecl
      cases hdecl
      exact hrun

/-- A node of a compiled module that has a type is found by a visit that the compilation comes to. -/
theorem reached_of_typed (hdecls : file.declarations = .ok decls) (hcompile : file.compile options = .ok u)
    (hm : u.module = some m) (hf : .function f ∈ m.decls) {n : Expr} (hn : n ∈ Expr.nodesBlock f.body)
    (htyped : n.info.type.isSome = true) : ∃ v, Visit.Reached options decls v ∧ v.Finds n := by
  have hparsed := file.parsed_of_declarations hdecls
  obtain ⟨items, p, items', r, hprepared, hitems, hbodies, hmdecls, -⟩ := SourceFile.items_of_compile hdecls hcompile hm
  rw [hmdecls] at hf
  obtain ⟨item', hitem', hdecl⟩ := List.mem_map.mp hf
  obtain ⟨before, item, behind, done, q, q', rfl, hbefore, hstep⟩ := Phase.mem_run_inv hbodies hitem'
  -- what is not checked has no types
  have hfresh : ∀ f₀, item.decl = .function f₀ → .function f₀ ∈ decls := by
    intro f₀ h
    rw [← hitems, ← h]
    exact List.mem_map_of_mem (by simp)
  rcases bodies_step_cases hstep hdecl with hsame | ⟨hrunning, f₀, st, rfl, hrun⟩
  · have hbody := hparsed.body f (hfresh f (hsame ▸ hdecl))
    exact (hbody.not_typed hn htyped).elim
  · have hmem := hfresh f₀ rfl
    have huntyped : f₀.info.type = none := by rw [hparsed.untyped f₀ hmem]
    rcases functionWith_cases huntyped hrun with ⟨-, hbody⟩ | ⟨-, c, fr, st₁, hbegins, hbody⟩
    · rw [hbody] at hn
      exact ((hparsed.body f₀ hmem).not_typed hn htyped).elim
    · obtain ⟨v, hsteps, hfinds⟩ := tracks_blockOf f₀.body (hparsed.body f₀ hmem) c fr (Prod.ext hbody rfl) hn htyped
      exact ⟨v, .inside hprepared hbefore hrunning hbegins hsteps, hfinds⟩

end

end RainCheck
