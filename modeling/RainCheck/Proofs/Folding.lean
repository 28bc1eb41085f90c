import RainCheck.Proofs.Evaluation
import RainCheck.Proofs.Nodes

/-!
# Folded constants

Which nodes of a checked tree have a value, and which value it is (`Expr.Folded`).
* A value stands on literals, on operations whose operands have values and, if the options ask for it, on builtins whose
  arguments have values.  A division by the integer 0 has none.
* The value is that of the whole expression (`Expr.evaluate`) and has the type of the node.
* A node with a value is constant, and a constant node could be computed before the program runs.
-/

namespace RainCheck

open Check RainCheck.Action

/-- A division whose right operand is the integer 0. -/
def BinaryOp.DividesBy (op : BinaryOp) (divisor : Option Value) : Prop :=
  (op = .div ∨ op = .rem) ∧ (divisor = some (.i32 0) ∨ divisor = some (.i64 0))

namespace Expr

/-- The nodes on which a value stands, told by the values of their parts. -/
def Foldable (folding : Bool) : Expr → Prop
  | .integer _ _ | .float _ _ | .boolean _ _ => True
  | .unary _ op operand => op ≠ .address ∧ operand.info.value.isSome = true
  | .binary _ op lhs rhs =>
    lhs.info.value.isSome = true ∧ rhs.info.value.isSome = true ∧ ¬op.DividesBy rhs.info.value
  | .builtinCall _ _ args => folding = true ∧ ∀ e ∈ args, e.info.value.isSome = true
  | _ => False

/-- The nodes that would have a value, if they did not divide by zero. -/
def Undefined : Expr → Prop
  | .binary _ op lhs rhs => lhs.info.value.isSome = true ∧ op.DividesBy rhs.info.value
  | _ => False

/-- What is known about the value of a checked node. -/
structure Folded (folding : Bool) (n : Expr) : Prop where
  present : n.info.value.isSome = true ↔ n.Foldable folding
  value : n.info.value = n.evaluate folding
  tag : ∀ v, n.info.value = some v → n.info.type = some v.type
  constant : n.info.value.isSome = true → n.info.constant = true
  compileTime : n.info.constant = true → n.info.compileTime = true
  unfolded : n.Undefined → n.info.constant = false ∧ n.info.compileTime = true

end Expr

/-! ### When operations have a value -/

/-- An operation on constants of a type that it takes has a value, unless it divides by zero. -/
private theorem BinaryOp.meaning_isSome {op : BinaryOp} {l r : Value} (htype : l.type = r.type)
    (htakes : (operandTypes op).2 l.type = true) : (op.meaning l r).isSome = true ↔ ¬op.DividesBy (some r) := by
  cases l <;> cases r <;> cases htype
  case i32.i32 l r =>
    have hzero : r.toInt = 0 ↔ r = 0 := Int32.toInt_inj (y := 0)
    cases op <;> simp [meaning, integers, DividesBy, hzero]
  case i64.i64 l r =>
    have hzero : r.toInt = 0 ↔ r = 0 := Int64.toInt_inj (y := 0)
    cases op <;> simp [meaning, integers, DividesBy, hzero]
  case bool.bool l r => cases op <;> cases htakes <;> simp [meaning, truths, DividesBy]
  case f32.f32 l r => cases op <;> cases htakes <;> simp [meaning, Value.float?, Value.compare?, DividesBy]
  case f64.f64 l r => cases op <;> cases htakes <;> simp [meaning, Value.float?, Value.compare?, DividesBy]

private theorem UnaryOp.negate_isSome {v : Value} (htakes : TypeId.isNumeric v.type = true) :
    (UnaryOp.negate.meaning v).isSome = true := by
  cases v <;> first | rfl | cases htakes

private theorem UnaryOp.invert_isSome {v : Value} (htakes : isLogical v.type = true) :
    (UnaryOp.invert.meaning v).isSome = true := by
  cases v <;> first | rfl | cases htakes

private theorem Builtin.meaning_isSome {b : Builtin} {values : List Value} {t : TypeId}
    (hlen : values.length = b.family.arity)
    (htypes : ∀ v ∈ values, v.type = t) (htakes : b.family.takes t = true) : (b.meaning values).isSome = true := by
  match values with
  | [] => cases b <;> cases hlen
  | [v] =>
    obtain rfl := htypes v List.mem_cons_self
    have harity : b.family.arity = 1 := hlen.symm
    cases b <;> cases harity <;> cases v <;> first | rfl | cases htakes
  | [v, v'] =>
    obtain rfl := htypes v List.mem_cons_self
    have hv' := htypes v' (by simp)
    have harity : b.family.arity = 2 := hlen.symm
    cases b <;> cases harity <;> cases v <;> cases v' <;> cases hv' <;> first | rfl | cases htakes
  | _ :: _ :: _ :: _ => cases b <;> cases hlen

/-! ### Rules that find no value -/

section

variable {α β : Type} {a : Action α} {f : α → Action β}

/-- All results that an action can give have a property. -/
def Action.Always (a : Action α) (P : α → Prop) : Prop := ∀ s x s', a.Yields s x s' → P x

private theorem always_pure {x : α} {P : α → Prop} (h : P x) : (pure x : Action α).Always P := by
  intro s y s' hyields
  obtain ⟨rfl, -⟩ := yields_pure.mp hyields
  exact h

private theorem always_bind {P : β → Prop} (h : ∀ x, (f x).Always P) : (a >>= f).Always P := by
  intro s y s' hyields
  obtain ⟨x, s₁, -, hnext⟩ := yields_bind.mp hyields
  exact h x s₁ y s' hnext

private theorem always_refuse {span : Span} {cause : Cause} {P : α → Prop} : (refuse span cause : Action α).Always P :=
  fun _ _ _ hyields => absurd hyields yields_refuse

/-- Nothing is known about the value of a node. -/
def Info.Silent (i : Info) : Prop := i.value = none ∧ i.constant = false

variable {info : Info} (hinfo : info.Silent)
include hinfo

theorem always_resolve {t : TypeId} {b : Bool} : (pure (info.resolve t b false) : Action Info).Always Info.Silent :=
  always_pure ⟨hinfo.1, rfl⟩

theorem identifierRule_silent {fr : FrameId} {name : String} :
    (identifierRule fr info name).Always fun p => p.2.Silent := by
  unfold identifierRule
  refine always_bind fun s => always_bind fun r => ?_
  cases r with
  | none => exact always_refuse
  | some v =>
    refine always_bind fun _ => always_bind fun _ => always_bind fun t => always_pure ⟨hinfo.1, rfl⟩

theorem memberRule_silent {base : Expr} {name : String} {span : Span} :
    (memberRule info base name span).Always fun p => p.2.Silent := by
  unfold memberRule
  refine always_bind fun outer => always_bind fun type => always_bind fun entry => ?_
  split
  · exact always_bind fun _ => always_refuse
  · refine always_bind fun _ => always_bind fun found => ?_
    dsimp only
    split
    · exact always_bind fun field => always_pure ⟨hinfo.1, rfl⟩
    · exact always_refuse

theorem callRule_silent {callee : Expr} {args : List Expr} : (callRule info callee args).Always Info.Silent := by
  unfold callRule
  refine always_bind fun type => always_bind fun entry => ?_
  split
  · exact always_bind fun _ => always_refuse
  · split
    · exact always_bind fun _ => always_bind fun _ => always_resolve hinfo
    · exact always_bind fun _ => always_resolve hinfo

theorem addressRule_silent {operand : Expr} : (addressRule info operand).Always Info.Silent := by
  unfold addressRule
  refine always_bind fun type => always_bind fun located => ?_
  split
  · exact always_bind fun _ => always_bind fun _ => always_resolve hinfo
  · exact always_bind fun _ => always_resolve hinfo

theorem assignmentRule_silent {target source : Expr} : (assignmentRule info target source).Always Info.Silent := by
  unfold assignmentRule
  refine always_bind fun _ => always_bind fun located => ?_
  split
  · exact always_bind fun _ => always_bind fun _ => always_bind fun _ => always_bind fun _ => always_resolve hinfo
  · exact always_bind fun _ => always_bind fun _ => always_bind fun _ => always_resolve hinfo

theorem blockRule_silent {stmts : List Expr} {tail : Option Expr} : (blockRule info stmts tail).Always Info.Silent := by
  unfold blockRule
  cases tail with
  | some e => exact always_bind fun _ => always_resolve hinfo
  | none => exact always_resolve hinfo

theorem ifRule_silent {thenBlock : Block Expr} {other : Option Expr} :
    (ifRule info thenBlock other).Always Info.Silent := by
  unfold ifRule
  cases other with
  | none => exact always_bind fun _ => always_resolve hinfo
  | some e =>
    refine always_bind fun _ => always_bind fun _ => always_bind fun fits => ?_
    split
    · exact always_resolve hinfo
    · refine always_bind fun fits' => ?_
      split
      · exact always_resolve hinfo
      · exact always_bind fun _ => always_pure hinfo

theorem voidBlockRule_silent {body : Block Expr} {t : TypeId} : (voidBlockRule info body t).Always Info.Silent :=
  always_bind fun _ => always_resolve hinfo

theorem functionRule_silent {body : Block Expr} {entry : Entry} : (functionRule info body entry).Always Info.Silent :=
  always_bind fun _ => always_resolve hinfo

theorem jumpRule_silent {keyword : String} {inLoop : Bool} : (jumpRule info keyword inLoop).Always Info.Silent := by
  unfold jumpRule
  split
  · exact always_bind fun _ => always_resolve hinfo
  · exact always_resolve hinfo

theorem returnRule_silent {returns : Option TypeId} {result : Option Expr} :
    (returnRule info returns result).Always Info.Silent := by
  unfold returnRule
  cases returns with
  | none => exact always_refuse
  | some r => exact always_bind fun _ => always_resolve hinfo

end

/-! ### Rules that find a value -/

section

variable {info j : Info} {s s' : Store}

theorem yields_load {t u : TypeId} : (load t).Yields s u s' ↔ s.Loads t u ∧ s = s' := yields_fromTypes

private theorem negationRule_inv {op : UnaryOp} {operand : Expr} {expected : String} {takes : TypeId → Bool}
    (h : (negationRule info op operand expected takes).Yields s j s') :
    ∃ t u, operand.info.type = some t ∧ s.Loads t u ∧ takes u = true ∧
      j = operationInfo info u (operand.info.value.bind (Value.unary? op)) operand.info.compileTime := by
  unfold negationRule at h
  simp only [yields_bind, yields_typeOf, yields_load] at h
  obtain ⟨t, _, ⟨ht, rfl⟩, u, _, ⟨hu, rfl⟩, h⟩ := h
  split at h
  · obtain ⟨_, _, -, hrefuse⟩ := yields_bind.mp h
    obtain ⟨_, _, hrefuse, -⟩ := yields_bind.mp hrefuse
    exact absurd hrefuse yields_refuse
  · rename_i htakes
    obtain ⟨rfl, -⟩ := yields_pure.mp h
    exact ⟨t, u, ht, hu, by simpa using htakes, rfl⟩

/-- The values of two operands, and what an operation on them gives. -/
private theorem foldOperands_inv {op : BinaryOp} {l r : Info} {o : Option Value}
    (h : (foldOperands op l r).Yields s o s') :
    (∃ v w, l.value = some v ∧ r.value = some w ∧ Value.binary? op v w = .ok o) ∨
      (l.value = none ∨ r.value = none) ∧ o = none := by
  unfold foldOperands at h
  split at h
  · rename_i v w hv hw
    exact .inl ⟨v, w, hv, hw, (yields_lift.mp h).1⟩
  · rename_i hnone
    obtain ⟨rfl, -⟩ := yields_pure.mp h
    refine .inr ⟨?_, rfl⟩
    cases hl : l.value with
    | none => exact .inl rfl
    | some v =>
      cases hr : r.value with
      | none => exact .inr rfl
      | some w => exact (hnone v w hl hr).elim

private theorem binaryRule_inv {op : BinaryOp} {lhs rhs : Expr} (h : (binaryRule info op lhs rhs).Yields s j s') :
    ∃ t t' u o s₁, lhs.info.type = some t ∧ rhs.info.type = some t' ∧ s.Loads t u ∧ s.Loads t' u ∧
      (operandTypes op).2 u = true ∧ (foldOperands op lhs.info rhs.info).Yields s o s₁ ∧
      j = operationInfo info (if op.isComparison then TypeId.bool else u) o
        (lhs.info.compileTime && rhs.info.compileTime) := by
  unfold binaryRule at h
  simp only [yields_bind, yields_typeOf, yields_load] at h
  obtain ⟨t, _, ⟨ht, rfl⟩, u, _, ⟨hu, rfl⟩, t', _, ⟨ht', rfl⟩, u', _, ⟨hu', rfl⟩, h⟩ := h
  split at h
  · obtain ⟨_, _, -, hrefuse⟩ := yields_bind.mp h
    obtain ⟨_, _, hrefuse, -⟩ := yields_bind.mp hrefuse
    exact absurd hrefuse yields_refuse
  · rename_i htakes
    split at h
    · obtain ⟨_, _, -, hrefuse⟩ := yields_bind.mp h
      obtain ⟨_, _, -, hrefuse⟩ := yields_bind.mp hrefuse
      obtain ⟨_, _, hrefuse, -⟩ := yields_bind.mp hrefuse
      exact absurd hrefuse yields_refuse
    · rename_i hsame
      obtain rfl : u = u' := by simpa using hsame
      obtain ⟨o, s₁, ho, hpure⟩ := yields_bind.mp h
      obtain ⟨rfl, -⟩ := yields_pure.mp hpure
      exact ⟨t, t', u, o, s₁, ht, ht', hu, hu', by simpa using htakes, ho, rfl⟩

/-- The arguments of a builtin are as many as it takes, and have one type behind references. -/
private theorem builtinRule_inv {options : Options} {b : Builtin} {args : List Expr}
    (h : (builtinRule options info b args).Yields s j s') :
    ∃ u o s₁ s₂, args.length = b.family.arity ∧ (∀ e ∈ args, ∃ t, e.info.type = some t ∧ s.Loads t u) ∧
      b.family.takes u = true ∧ (foldArguments options b args).Yields s₁ o s₂ ∧
      j = operationInfo info (b.family.result u) o (args.all (·.info.compileTime)) := by
  unfold builtinRule at h
  dsimp only at h
  split at h
  · obtain ⟨_, _, hrefuse, -⟩ := yields_bind.mp h
    exact absurd hrefuse yields_refuse
  · rename_i hlen
    have hlen : args.length = b.family.arity := by simpa using hlen
    cases args with
    | nil => exact absurd h yields_fail
    | cons first rest =>
      simp only [yields_bind, yields_typeOf, yields_load] at h
      obtain ⟨t, _, ⟨ht, rfl⟩, u, _, ⟨hu, rfl⟩, h⟩ := h
      split at h
      · obtain ⟨_, _, -, hrefuse⟩ := yields_bind.mp h
        obtain ⟨_, _, hrefuse, -⟩ := yields_bind.mp hrefuse
        exact absurd hrefuse yields_refuse
      · rename_i htakes
        simp only [yields_bind, yields_pure] at h
        obtain ⟨_, s₁, hsecond, _, s₂, -, o, s₃, ho, rfl, -⟩ := h
        refine ⟨u, o, s₂, s₃, hlen, ?_, by simpa using htakes, ho, rfl⟩
        -- the second argument has the type of the first one
        rcases rest with _ | ⟨second, _ | ⟨third, more⟩⟩
        · simpa using ⟨t, ht, hu⟩
        · unfold matchSecond at hsecond
          simp only [yields_bind, yields_typeOf, yields_load] at hsecond
          obtain ⟨t', _, ⟨ht', rfl⟩, u', _, ⟨hu', rfl⟩, hsecond⟩ := hsecond
          split at hsecond
          · obtain ⟨_, _, -, hrefuse⟩ := yields_bind.mp hsecond
            obtain ⟨_, _, -, hrefuse⟩ := yields_bind.mp hrefuse
            exact absurd hrefuse yields_refuse
          · rename_i hsame
            obtain rfl : u' = u := by simpa using hsame
            simpa using ⟨⟨t, ht, hu⟩, t', ht', hu'⟩
        · cases b <;> cases hlen

private theorem foldArguments_inv {options : Options} {b : Builtin} {args : List Expr} {o : Option Value}
    (h : (foldArguments options b args).Yields s o s') :
    (options.constantFolding = true ∧ ∃ values, valuesOf args = some values ∧ b.value? values = .ok o) ∨
      (options.constantFolding = false ∨ valuesOf args = none) ∧ o = none := by
  unfold foldArguments at h
  split at h
  · rename_i values hfolding hvalues
    exact .inl ⟨hfolding, values, hvalues, (yields_lift.mp h).1⟩
  · rename_i hnone
    obtain ⟨rfl, -⟩ := yields_pure.mp h
    refine .inr ⟨?_, rfl⟩
    cases hfolding : options.constantFolding with
    | false => exact .inl rfl
    | true =>
      cases hvalues : valuesOf args with
      | none => exact .inr rfl
      | some values => exact (hnone values hfolding hvalues).elim

/-- A literal is constant if all its fields are. -/
private theorem literalRule_inv {type : TypeId} {owner : String} {declared : List (String × TypeId)}
    {fields : List (FieldInit Expr)} (h : (literalRule info type owner declared fields).Yields s j s') :
    j = info.resolve type (fields.all (·.value.info.compileTime)) (fields.all (·.value.info.constant)) := by
  unfold literalRule at h
  split at h
  · exact absurd h yields_refuse
  · exact (yields_pure.mp h).1.symm

end

/-! ### Nodes -/

section

variable {L : Listing} {folding : Bool} {info i : Info} {st st' : CheckState}

/-- A node about whose value nothing is known. -/
private theorem Expr.Folded.of_silent {n : Expr} (hi : n.info.Silent) (hfoldable : ¬n.Foldable folding)
    (hevaluate : n.evaluate folding = none) (hundefined : ¬n.Undefined) : n.Folded folding where
  present := by simp [hi.1, hfoldable]
  value := hi.1.trans hevaluate.symm
  tag v hv := by
    rw [hi.1] at hv
    cases hv
  constant h := by
    rw [hi.1] at h
    cases h
  compileTime h := by
    rw [hi.2] at h
    cases h
  unfolded h := absurd h hundefined

private theorem conclude_silent {rule : Action Info} (hrule : rule.Always Info.Silent)
    (hi : (conclude info rule).run st = (i, st')) (hstop : st'.stop = none) : i.Silent := by
  obtain ⟨j, b, hgives, hj⟩ := conclude_inv hi hstop
  obtain ⟨hvalue, hconstant⟩ := hrule _ j _ hgives.yields
  rw [hj]
  exact ⟨hvalue, hconstant⟩

/-- A literal has the value it is written with. -/
private theorem folded_constant {n : Expr} {v : Value}
    (hi : (conclude info (return info.fold v.type v)).run st = (n.info, st'))
    (hstop : st'.stop = none) (hfoldable : n.Foldable folding) (hevaluate : n.evaluate folding = some v)
    (hundefined : ¬n.Undefined) : n.Folded folding := by
  obtain ⟨j, b, hgives, hn⟩ := conclude_inv hi hstop
  obtain ⟨rfl, -⟩ := yields_pure.mp hgives.yields
  have hvalue : n.info.value = some v := by rw [hn]; rfl
  have htype : n.info.type = some v.type := by rw [hn]; rfl
  refine ⟨by simp [hvalue, hfoldable], hvalue.trans hevaluate.symm, fun w hw => ?_, fun _ => by rw [hn]; rfl,
    fun _ => by rw [hn]; rfl, fun h => absurd h hundefined⟩
  rw [hvalue] at hw
  cases hw
  exact htype

/-- An operation has the value `o` that was found for it, or none. -/
private theorem Expr.Folded.of_operation {n : Expr} {t : TypeId} {o : Option Value} {c b : Bool} (hinfo : info.Silent)
    (hn : n.info = { operationInfo info t o c with reference := b }) (hfoldable : o.isSome = true ↔ n.Foldable folding)
    (hevaluate : o = n.evaluate folding) (htype : ∀ v, o = some v → v.type = t)
    (hundefined : n.Undefined → o = none ∧ c = true) : n.Folded folding := by
  have hvalue : n.info.value = o := by
    rw [hn]
    cases o with
    | none => exact hinfo.1
    | some v => rfl
  have hnumber : n.info.type = some t := by
    rw [hn]
    cases o <;> rfl
  have hconstant : n.info.constant = o.isSome := by
    rw [hn]
    cases o <;> rfl
  refine ⟨by rw [hvalue, hfoldable], hvalue.trans hevaluate, fun v hv => ?_, fun h => ?_, fun h => ?_, fun h => ?_⟩
  · rw [hnumber, htype v (hvalue ▸ hv)]
  · rw [hconstant, ← hvalue, h]
  · rw [hconstant] at h
    obtain ⟨v, rfl⟩ := Option.isSome_iff_exists.mp h
    rw [hn]
    rfl
  · obtain ⟨rfl, rfl⟩ := hundefined h
    rw [hn]
    exact ⟨rfl, rfl⟩

/-- The type behind that of a constant is the type itself. -/
private theorem Expr.Folded.loaded {n : Expr} {s : Store} {t u : TypeId} {v : Value}
    (h : n.Folded folding) (hs : s.Sound L)
    (ht : n.info.type = some t) (hu : s.Loads t u) (hv : n.info.value = some v) : v.type = u := by
  have htag := h.tag v hv
  rw [ht] at htag
  cases htag
  exact (loads_value hs rfl hu).symm

private theorem Expr.Folded.constant_value {n : Expr} {v : Value} (h : n.Folded folding) (hv : n.info.value = some v) :
    n.info.compileTime = true :=
  h.compileTime (h.constant (by rw [hv]; rfl))

/-- A negation has a value if its operand has one. -/
private theorem folded_negation {op : UnaryOp} {operand : Expr} {expected : String}
    {takes : TypeId → Bool} (hs : st.Sound L)
    (hinfo : info.Silent) (hop : op ≠ .address)
    (hsome : ∀ v : Value, takes v.type = true → (op.meaning v).isSome = true)
    (hoperand : operand.Folded folding)
    (hi : (conclude info (negationRule info op operand expected takes)).run st = (i, st')) (hstop : st'.stop = none) :
    (Expr.unary i op operand).Folded folding := by
  obtain ⟨j, b, hgives, hj⟩ := conclude_inv hi hstop
  obtain ⟨t, u, ht, hu, htakes, rfl⟩ := negationRule_inv hgives.yields
  have htype : ∀ v, operand.info.value = some v → v.type = u := fun v hv => hoperand.loaded hs.store ht hu hv
  refine .of_operation hinfo hj ?_ ?_ (fun w hw => ?_) False.elim
  · constructor
    · intro h
      refine ⟨hop, ?_⟩
      cases hv : operand.info.value with
      | none =>
        rw [hv] at h
        cases h
      | some v => rfl
    · rintro ⟨-, h⟩
      obtain ⟨v, hv⟩ := Option.isSome_iff_exists.mp h
      rw [hv, Option.bind_some, Value.unary?_eq_meaning]
      exact hsome v (htype v hv ▸ htakes)
  · rw [Expr.evaluate, ← hoperand.value]
    exact congrArg _ (funext (Value.unary?_eq_meaning op))
  · obtain ⟨v, hv, hunary⟩ := Option.bind_eq_some_iff.mp hw
    rw [Value.unary?_type hunary, htype v hv]

/-- An operation has a value if its operands have values, unless it divides by zero. -/
private theorem folded_binary {op : BinaryOp} {lhs rhs : Expr} (hs : st.Sound L) (hinfo : info.Silent)
    (hlhs : lhs.Folded folding) (hrhs : rhs.Folded folding)
    (hi : (conclude info (binaryRule info op lhs rhs)).run st = (i, st')) (hstop : st'.stop = none) :
    (Expr.binary i op lhs rhs).Folded folding := by
  obtain ⟨j, b, hgives, hj⟩ := conclude_inv hi hstop
  obtain ⟨t, t', u, o, s₁, ht, ht', hu, hu', htakes, hfold, rfl⟩ := binaryRule_inv hgives.yields
  rcases foldOperands_inv hfold with ⟨v, w, hv, hw, ho⟩ | ⟨hnone, rfl⟩
  · have hvtype : v.type = u := hlhs.loaded hs.store ht hu hv
    have hwtype : w.type = u := hrhs.loaded hs.store ht' hu' hw
    have hsame : v.type = w.type := hvtype.trans hwtype.symm
    have hmeaning : op.meaning v w = o := by
      rw [Value.binary?_eq_meaning op hsame] at ho
      exact Except.ok.inj ho
    have hdefined : o.isSome = true ↔ ¬op.DividesBy (some w) :=
      hmeaning ▸ BinaryOp.meaning_isSome hsame (hvtype ▸ htakes)
    refine .of_operation hinfo hj ?_ ?_ (fun x hx => ?_) fun hundefined => ?_
    · rw [hdefined, Expr.Foldable, hv, hw]
      simp
    · rw [Expr.evaluate, ← hlhs.value, ← hrhs.value, hv, hw]
      exact hmeaning.symm
    · obtain ⟨_, ho', htype⟩ := Value.binary?_type op hsame
      rw [ho] at ho'
      cases ho'
      rw [htype x hx, Value.resultType, hvtype]
    · -- both operands are constant, so the operation could be computed
      obtain ⟨-, hdivides⟩ := hundefined
      refine ⟨Option.not_isSome_iff_eq_none.mp fun hsome => hdefined.mp hsome (hw ▸ hdivides), ?_⟩
      rw [hlhs.constant_value hv, hrhs.constant_value hw, Bool.and_self]
  · -- without a value of one operand there is none
    refine .of_operation hinfo hj ⟨nofun, ?_⟩ ?_ nofun ?_
    · rintro ⟨hl, hr, -⟩
      rcases hnone with hnone | hnone
      · rw [hnone] at hl
        cases hl
      · rw [hnone] at hr
        cases hr
    · rw [Expr.evaluate, ← hlhs.value, ← hrhs.value]
      rcases hnone with hnone | hnone
      · rw [hnone]
        rfl
      · rw [hnone]
        cases lhs.info.value <;> rfl
    · rintro ⟨hl, -, hzero⟩
      rcases hnone with hnone | hnone
      · rw [hnone] at hl
        cases hl
      · rw [hnone] at hzero
        rcases hzero with hzero | hzero <;> cases hzero

/-- The values of arguments are those of the expressions. -/
private theorem valuesOf_eq_evaluateAll {args : List Expr} (h : ∀ e ∈ args, e.Folded folding) :
    valuesOf args = Expr.evaluateAll folding args := by
  unfold valuesOf
  induction args with
  | nil => rfl
  | cons e rest ih =>
    rw [List.mapM_cons, ih fun x hx => h x (List.mem_cons_of_mem _ hx),
      (h e List.mem_cons_self).value, Expr.evaluateAll]
    cases Expr.evaluate folding e <;> cases Expr.evaluateAll folding rest <;> rfl

private theorem valuesOf_isSome {args : List Expr} :
    (valuesOf args).isSome = true ↔ ∀ e ∈ args, e.info.value.isSome = true := by
  unfold valuesOf
  induction args with
  | nil => simp
  | cons e rest ih =>
    rw [List.mapM_cons, List.forall_mem_cons, ← ih]
    cases e.info.value <;> cases rest.mapM (·.info.value) <;> simp

/-- A builtin has a value if its arguments have values and the options ask for it. -/
private theorem folded_builtin {options : Options} {name : String} {b : Builtin} {args : List Expr} (hs : st.Sound L)
    (hinfo : info.Silent) (hname : Builtin.ofName? name = some b) (hargs : ∀ e ∈ args, e.Folded options.constantFolding)
    (hi : (conclude info (builtinRule options info b args)).run st = (i, st')) (hstop : st'.stop = none) :
    (Expr.builtinCall i name args).Folded options.constantFolding := by
  obtain ⟨j, _, hgives, hj⟩ := conclude_inv hi hstop
  obtain ⟨u, o, s₁, s₂, hlen, htypes, htakes, hfold, rfl⟩ := builtinRule_inv hgives.yields
  rcases foldArguments_inv hfold with ⟨hfolding, values, hvalues, ho⟩ | ⟨hnone, rfl⟩
  · obtain ⟨hlength, hmem⟩ := mem_valuesOf hvalues
    have hlength : values.length = b.family.arity := hlength.trans hlen
    have hvtypes : ∀ v ∈ values, v.type = u := by
      intro v hv
      obtain ⟨e, he, hvalue⟩ := hmem v hv
      obtain ⟨t, ht, hu⟩ := htypes e he
      exact (hargs e he).loaded hs.store ht hu hvalue
    have hmeaning : b.meaning values = o := by
      rw [Builtin.value?_eq_meaning hlength hvtypes htakes] at ho
      exact Except.ok.inj ho
    refine .of_operation hinfo hj ?_ ?_ (fun x hx => ?_) False.elim
    · have hsome : o.isSome = true := hmeaning ▸ Builtin.meaning_isSome hlength hvtypes htakes
      have hall := valuesOf_isSome.mp (Option.isSome_of_eq_some hvalues)
      exact ⟨fun _ => ⟨hfolding, hall⟩, fun _ => hsome⟩
    · rw [Expr.evaluate, ← valuesOf_eq_evaluateAll hargs, hvalues, hfolding, hname]
      exact hmeaning.symm
    · obtain ⟨_, ho', htype⟩ := Builtin.value?_type hlength hvtypes
      rw [ho] at ho'
      cases ho'
      exact htype x hx
  -- without folding, or with an argument that has no value, there is none
  · refine .of_operation hinfo hj ⟨nofun, ?_⟩ ?_ nofun False.elim
    · rintro ⟨hfolding, hall⟩
      rcases hnone with hnone | hnone
      · rw [hnone] at hfolding
        cases hfolding
      · have hsome := valuesOf_isSome.mpr hall
        rw [hnone] at hsome
        cases hsome
    · rw [Expr.evaluate, ← valuesOf_eq_evaluateAll hargs]
      rcases hnone with hnone | hnone
      · rw [hnone]
        rfl
      · rw [hnone, hname]
        cases options.constantFolding <;> rfl

/-- A struct literal has no value, but it is constant if all its fields are. -/
private theorem folded_literal {type : TypeId} {owner name : String} {declared : List (String × TypeId)}
    {inits : List (FieldInit Expr)} (hinfo : info.Silent) (hinits : ∀ f ∈ inits, f.value.Folded folding)
    (hi : (conclude info (literalRule info type owner declared inits)).run st = (i, st')) (hstop : st'.stop = none) :
    (Expr.structLiteral i name inits).Folded folding := by
  obtain ⟨j, b, hgives, rfl⟩ := conclude_inv hi hstop
  obtain rfl := literalRule_inv hgives.yields
  refine ⟨?_, hinfo.1, fun v hv => ?_, fun h => ?_, fun h => ?_, False.elim⟩
  · simp [Expr.info, Info.resolve, hinfo.1, Expr.Foldable]
  · cases hinfo.1.symm.trans hv
  · have hnone : info.value.isSome = true := h
    rw [hinfo.1] at hnone
    cases hnone
  · have hconstant : inits.all (·.value.info.constant) = true := h
    refine List.all_eq_true.mpr fun f hf => ?_
    exact (hinits f hf).compileTime (List.all_eq_true.mp hconstant f hf)

end

/-! ### Trees -/

section

variable {L : Listing} {functions : List Variable} {uses : List Use} {σ : Scope} {c : Context} {fr : FrameId}
  {st st' : CheckState}

private theorem Visit.Sound.behind {e e' : Expr} (h : Visit.Sound L functions uses σ ⟨c, fr, .expr e, st⟩)
    (hrun : (Check.expr c fr e).run st = (e', st')) : st'.Sound L := by
  obtain ⟨b, hf⟩ := h.fresh
  exact ((walks_iff hrun).mp (checks_expr e hf c fr σ st h.ready)).1.sound h.ready.sound

private theorem Visit.Sound.behind_all {es es' : List Expr} (h : Visit.Sound L functions uses σ ⟨c, fr, .exprs es, st⟩)
    (hrun : (Check.exprs c fr es).run st = (es', st')) : st'.Sound L := by
  obtain ⟨b, hf⟩ := h.fresh
  have hstatements : ∀ e ∈ es, e.Fresh true := by
    intro e he
    cases b with
    | false => exact (hf e he).statement
    | true => exact hf e he
  exact ((walks_iff hrun).mp (checks_statements es hstatements c fr σ st h.ready)).1.sound h.ready.sound

private theorem Expr.Fresh.silent {e : Expr} {b : Bool} (hf : e.Fresh b) : e.info.Silent := by
  cases hf <;> exact ⟨rfl, rfl⟩

/-- What is written on a block tells nothing about a value. -/
private theorem block_silent {b b' : Block Expr} (hf : (Expr.block b).Fresh false)
    (hrun : (Check.block c fr b).run st = (b', st')) (hstop : st'.stop = none) : b'.info.Silent := by
  cases hf with
  | block =>
    cases Block.walked rfl hrun hstop with
    | block hnest hstmts htail hi => exact conclude_silent (blockRule_silent ⟨rfl, rfl⟩) hi hstop

/-- The node of a rule that finds its information apart from writing it down. -/
private theorem attempt_silent {α : Type} {rule : Action (α × Info)} {x : α} {info found i : Info} {st₁ : CheckState}
    (hrule : rule.Always fun p => p.2.Silent) (hrun : (attempt rule).run st = (some (x, found), st₁))
    (hi : (conclude info (return found)).run st₁ = (i, st')) (hstop : st'.stop = none) : i.Silent :=
  conclude_silent (always_pure (hrule _ _ _ (attempt_gives hrun).yields)) hi hstop

/-- The builtin that is found has the name. -/
theorem ofName?_of_attempt {info : Info} {name : String} {b : Builtin}
    (h : (attempt (findBuiltin info name)).run st = (some b, st')) : Builtin.ofName? name = some b := by
  have hyields := (attempt_gives h).yields
  unfold findBuiltin at hyields
  split at hyields
  · obtain ⟨rfl, -⟩ := yields_pure.mp hyields
    assumption
  · exact absurd hyields yields_refuse

/-- Expressions that may have a value or be constant. -/
def Expr.isComputed : Expr → Bool
  | .integer _ _ | .float _ _ | .boolean _ _ | .unary _ _ _ | .binary _ _ _ _ | .builtinCall _ _ _ => true
  | .structLiteral _ _ _ => true
  | _ => false

/-- What is written on other nodes tells nothing about a value. -/
private theorem Expr.Walked.silent {e e' : Expr} {b : Bool} (hwalked : e.Walked c fr st e' st') (hf : e.Fresh b)
    (hother : e.isComputed = false) (hstop : st'.stop = none) : e'.info.Silent := by
  cases hf with
  | integer | float | boolean | unary | binary | builtinCall | structLiteral => cases hother
  | identifier =>
    cases hwalked with
    | identifier hrule hi => exact attempt_silent (identifierRule_silent ⟨rfl, rfl⟩) hrule hi hstop
  | member =>
    cases hwalked with
    | member hbase hrule hi => exact attempt_silent (memberRule_silent ⟨rfl, rfl⟩) hrule hi hstop
  | call =>
    cases hwalked with
    | call hcallee hargs hi => exact conclude_silent (callRule_silent ⟨rfl, rfl⟩) hi hstop
  | assignment =>
    cases hwalked with
    | assignment htarget hsource hi => exact conclude_silent (assignmentRule_silent ⟨rfl, rfl⟩) hi hstop
  | letBinding =>
    cases hwalked with
    | letBinding hinit hrule hdeclare hi => exact conclude_silent (always_resolve ⟨rfl, rfl⟩) hi hstop
  | block hstmts htail =>
    cases hwalked with
    | block hblock => exact block_silent (.block hstmts htail) hblock hstop
  | ifElse =>
    cases hwalked with
    | ifElse hcond hbool hthen hother hi => exact conclude_silent (ifRule_silent ⟨rfl, rfl⟩) hi hstop
  | whileLoop =>
    cases hwalked with
    | whileLoop hcond hbool hbody hi => exact conclude_silent (voidBlockRule_silent ⟨rfl, rfl⟩) hi hstop
  | endlessLoop =>
    cases hwalked with
    | endlessLoop hbody hi => exact conclude_silent (voidBlockRule_silent ⟨rfl, rfl⟩) hi hstop
  | leaveLoop =>
    cases hwalked with
    | leaveLoop hi => exact conclude_silent (jumpRule_silent ⟨rfl, rfl⟩) hi hstop
  | nextRound =>
    cases hwalked with
    | nextRound hi => exact conclude_silent (jumpRule_silent ⟨rfl, rfl⟩) hi hstop
  | leaveFunction =>
    cases hwalked with
    | leaveFunction hreturns hresult hi => exact conclude_silent (returnRule_silent ⟨rfl, rfl⟩) hi hstop
  | function =>
    cases hwalked with
    | function hnested henter hparams hbody hi => exact conclude_silent (functionRule_silent ⟨rfl, rfl⟩) hi hstop

private theorem Expr.Walked.isComputed_eq {e e' : Expr} (h : e.Walked c fr st e' st') :
    e'.isComputed = e.isComputed := by
  cases h <;> rfl

private theorem Expr.Folded.of_other {n : Expr} {folding : Bool} (hother : n.isComputed = false) (hi : n.info.Silent) :
    n.Folded folding := by
  cases n <;> first | exact .of_silent hi id (by simp [Expr.evaluate]) id | cases hother

/-- An operator has a value if its operand has one. -/
private theorem folded_unary {info i : Info} {op : UnaryOp} {operand : Expr} {folding : Bool} (hs : st.Sound L)
    (hinfo : info.Silent) (hoperand : operand.Folded folding)
    (hi : (conclude info (unaryRule info op operand)).run st = (i, st')) (hstop : st'.stop = none) :
    (Expr.unary i op operand).Folded folding := by
  cases op with
  | negate => exact folded_negation hs hinfo nofun (fun v => UnaryOp.negate_isSome) hoperand hi hstop
  | invert => exact folded_negation hs hinfo nofun (fun v => UnaryOp.invert_isSome) hoperand hi hstop
  | address =>
    refine .of_silent (conclude_silent (addressRule_silent hinfo) hi hstop) (fun h => h.1 rfl) ?_ id
    rw [Expr.evaluate]
    cases Expr.evaluate folding operand <;> rfl

mutual

/-- What is written on an expression that is walked through. -/
private theorem folded_expr (e : Expr) {σ : Scope} {st st' : CheckState} {e' : Expr}
    (hv : Visit.Sound L functions uses σ ⟨c, fr, .expr e, st⟩) (hrun : (Check.expr c fr e).run st = (e', st'))
    (hstop : st'.stop = none) : e'.Folded c.options.constantFolding := by
  obtain ⟨b, hf⟩ := hv.fresh
  have huntyped := hf.untyped
  have hopen : st.stop = none := (steady_expr e).opened hrun hstop
  have hwalked := Expr.walked huntyped hrun hstop
  have hsilent : e.info.Silent := hf.silent
  cases hcomputed : e.isComputed with
  | false => exact .of_other (hwalked.isComputed_eq.trans hcomputed) (hwalked.silent hf hcomputed hstop)
  | true =>
    cases hwalked with
    | integer hi => exact folded_constant (v := .i32 _) hi hstop trivial (by rw [Expr.evaluate]) id
    | float hi => exact folded_constant (v := .f64 _) hi hstop trivial (by rw [Expr.evaluate]) id
    | boolean hi => exact folded_constant (v := .bool _) hi hstop trivial (by rw [Expr.evaluate]) id
    | unary hoperand hi =>
      obtain ⟨σ', hv'⟩ := (Visit.Step.operand hopen huntyped).sound hv
      exact folded_unary (hv'.behind hoperand) hsilent (folded_expr _ hv' hoperand (conclude_opened hi hstop)) hi hstop
    | binary hlhs hrhs hi =>
      obtain ⟨σ₁, hv₁⟩ := (Visit.Step.left hopen huntyped).sound hv
      obtain ⟨σ₂, hv₂⟩ := (Visit.Step.right hopen huntyped hlhs).sound hv
      have hstop₂ := conclude_opened hi hstop
      have hstop₁ := (steady_expr _).opened hrhs hstop₂
      exact folded_binary (hv₂.behind hrhs) hsilent (folded_expr _ hv₁ hlhs hstop₁)
        (folded_expr _ hv₂ hrhs hstop₂) hi hstop
    | builtinCall hfind hargs hi =>
      obtain ⟨σ', hv'⟩ := (Visit.Step.builtinArguments hopen huntyped hfind).sound hv
      exact folded_builtin (hv'.behind_all hargs) hsilent (ofName?_of_attempt hfind)
        (folded_exprs _ hv' hargs (conclude_opened hi hstop)) hi hstop
    | structLiteral hstruct hinits hi =>
      obtain ⟨σ', hv'⟩ := (Visit.Step.literalFields hopen huntyped hstruct).sound hv
      exact folded_literal hsilent (folded_fields _ hv' hinits (conclude_opened hi hstop)) hi hstop
    | _ => cases hcomputed

private theorem folded_exprs (es : List Expr) {σ : Scope} {st st' : CheckState} {es' : List Expr}
    (hv : Visit.Sound L functions uses σ ⟨c, fr, .exprs es, st⟩) (hrun : (Check.exprs c fr es).run st = (es', st'))
    (hstop : st'.stop = none) : ∀ e ∈ es', e.Folded c.options.constantFolding := by
  match es with
  | [] =>
    rw [Check.exprs] at hrun
    cases hrun
    exact fun _ h => (List.not_mem_nil h).elim
  | e :: rest =>
    rw [Check.exprs] at hrun
    obtain ⟨e', st₁, hhead, hrun⟩ := run_bind_inv hrun
    obtain ⟨rest', _, htail, hreturn⟩ := run_bind_inv hrun
    cases hreturn
    obtain ⟨σ₁, hv₁⟩ := Visit.Step.head.sound hv
    obtain ⟨σ₂, hv₂⟩ := (Visit.Step.tail hhead).sound hv
    have hstop₁ := (steady_exprs rest).opened htail hstop
    exact List.forall_mem_cons.mpr ⟨folded_expr e hv₁ hhead hstop₁, folded_exprs rest hv₂ htail hstop⟩

private theorem folded_fields (inits : List (FieldInit Expr)) {σ : Scope} {st st' : CheckState} {owner : String}
    {declared : List (String × TypeId)} {seen : List String} {inits' : List (FieldInit Expr)}
    (hv : Visit.Sound L functions uses σ ⟨c, fr, .fields owner declared seen inits, st⟩)
    (hrun : (Check.fields c fr owner declared seen inits).run st = (inits', st')) (hstop : st'.stop = none) :
    ∀ f ∈ inits', f.value.Folded c.options.constantFolding := by
  match inits with
  | [] =>
    rw [Check.fields] at hrun
    cases hrun
    exact fun _ h => (List.not_mem_nil h).elim
  | ⟨name, span, value⟩ :: rest =>
    rw [Check.fields] at hrun
    obtain ⟨type, st₁, hfield, hrun⟩ := attempt_inv hrun hstop steady_pure
    obtain ⟨value', st₂, hvalue, hrun⟩ := run_bind_inv hrun
    obtain ⟨_, st₃, hfits, hrun⟩ := run_bind_inv hrun
    obtain ⟨rest', _, hrest, hreturn⟩ := run_bind_inv hrun
    cases hreturn
    obtain ⟨σ₁, hv₁⟩ := (Visit.Step.fieldValue hfield).sound hv
    obtain ⟨σ₂, hv₂⟩ := (Visit.Step.laterFields hfield hvalue hfits).sound hv
    have hstop₂ := (demand_inv hfits ((steady_fields rest).opened hrest hstop)).opened
    exact List.forall_mem_cons.mpr ⟨folded_expr value hv₁ hvalue hstop₂, folded_fields rest hv₂ hrest hstop⟩

end

end

/-! ### Compiled modules -/

section

variable {decls : List Decl} {v w : Visit}

/-- The options stay the same along the visits. -/
private theorem Visit.Step.options (h : v.Step w) : w.context.options = v.context.options := by
  cases h with
  | nested _ _ _ hbegins =>
    cases hbegins
    rfl
  | _ => rfl

theorem Visit.Reached.options {o : Options} (h : v.Reached o decls) : v.context.options = o := by
  cases h with
  | inside _ _ _ hbegins hsteps =>
    induction hsteps with
    | refl =>
      cases hbegins
      rfl
    | tail _ hstep ih => rw [hstep.options, ih]

/-- A node that is found is folded. -/
private theorem Visit.Reached.folded {o : Options} {n : Expr} (hparsed : Parsed decls) (h : v.Reached o decls)
    (hfinds : v.Finds n) : n.Folded o.constantFolding := by
  obtain ⟨σ, hsound⟩ := h.sound hparsed
  rw [← h.options]
  cases hfinds with
  | expr hrun hstop => exact folded_expr _ hsound hrun hstop
  | block hrun hstop => exact .of_other rfl (block_silent hsound.fresh hrun hstop)

end

/--
Constant folding.  On every node of a compiled module that has a type: a value is present exactly
where the values of the parts give one, it is that of the whole expression, and it has the type of
the node.
-/
theorem folded_of_typed (file : SourceFile) (options : Options) (u : CompiledUnit) (m : Module)
    (f : FunctionDecl) (n : Expr)
    (hcompile : file.compile options = .ok u) (hm : u.module = some m) (hf : .function f ∈ m.decls)
    (hn : n ∈ Expr.nodesBlock f.body) (htyped : n.info.type.isSome = true) : n.Folded options.constantFolding := by
  obtain ⟨decls, hdecls, hparsed⟩ := SourceFile.declarations_of_compile hcompile hm
  obtain ⟨v, hreached, hfinds⟩ := reached_of_typed hdecls hcompile hm hf hn htyped
  exact hreached.folded hparsed hfinds

/-- A function that compares a quotient that does not fit into a word with a number that is shifted
by more than a word. -/
def wrappedQuotient : SourceFile := ⟨"wrapped", "fn f()->bool{-2147483648 / -1 < 1<<33}".toList⟩

/-- The truth value on a node, and the type of the node. -/
def Expr.truth? (e : Expr) : Option (Bool × Option TypeId) :=
  match e.info.value with
  | some (.bool b) => some (b, e.info.type)
  | _ => none

/-- The truth value that a function ends with, and its type. -/
def Decl.truth? : Decl → Option (Bool × Option TypeId)
  | .function f => f.body.tail.bind Expr.truth?
  | .struct _ => none

theorem folded_wrappedQuotient :
    ∃ u m f n, wrappedQuotient.compile {} = .ok u ∧ u.module = some m ∧ .function f ∈ m.decls ∧
    n ∈ Expr.nodesBlock f.body ∧ n.truth? = some (true, some TypeId.bool) ∧ n.Folded true := by
  have hrun :
      (wrappedQuotient.compile {}).toOption.bind (fun u => u.module.bind fun m => m.decls.head?.bind Decl.truth?) =
      some (true, some TypeId.bool) := by
    decide +kernel
  obtain ⟨u, hu, hrun⟩ := Option.bind_eq_some_iff.mp hrun
  obtain ⟨m, hm, hrun⟩ := Option.bind_eq_some_iff.mp hrun
  obtain ⟨d, hd, hrun⟩ := Option.bind_eq_some_iff.mp hrun
  cases hcompile : wrappedQuotient.compile {} with
  | error f =>
    rw [hcompile] at hu
    cases hu
  | ok u' =>
    rw [hcompile] at hu
    cases hu
    cases d with
    | struct d => cases hrun
    | function f =>
      obtain ⟨n, htail, htruth⟩ := Option.bind_eq_some_iff.mp hrun
      have hf : .function f ∈ m.decls := List.mem_of_head? hd
      have hn : n ∈ Expr.nodesBlock f.body := Expr.tail_mem_nodesBlock htail
      have htyped : n.info.type.isSome = true := by
        unfold Expr.truth? at htruth
        split at htruth
        · rw [(Prod.mk.inj (Option.some.inj htruth)).2]
          rfl
        · cases htruth
      exact ⟨u, m, f, n, rfl, hm, hf, hn, htruth, folded_of_typed _ _ u m f n hcompile hm hf hn htyped⟩

end RainCheck
