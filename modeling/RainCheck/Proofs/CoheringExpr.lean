import RainCheck.Proofs.Cohering
import RainCheck.Proofs.Grounding
import RainCheck.Proofs.Nodes

/-!
# Walks on coherent stores

A tree that is checked may carry types from an earlier check.  If these are in use, the check keeps
the store coherent, and the types that it writes on the tree are in use as well.
* (rules) From types in use a rule gives types in use (`Action.Gains`).
* (walks) So does a walk: with `T` the types that are known to be in use, what it writes on the tree is added to `T`
  (`Check.Gains`).
-/

namespace RainCheck

/-! ### Types on trees -/

/-- The types of nodes that have one. -/
def Expr.typesIn (ns : List Expr) : List TypeId := ns.filterMap (·.type?)

namespace Expr

variable {e : Expr} {t : TypeId} {T : List TypeId}

@[simp] theorem typesIn_nil : typesIn [] = [] := rfl

@[simp] theorem typesIn_cons (n : Expr) (ns : List Expr) : typesIn (n :: ns) = n.info.type.toList ++ typesIn ns := by
  unfold typesIn
  rw [List.filterMap_cons]
  cases h : n.type? <;> simp [show n.info.type = _ from h]

@[simp] theorem typesIn_append (ns ns' : List Expr) : typesIn (ns ++ ns') = typesIn ns ++ typesIn ns' :=
  List.filterMap_append

private theorem typesIn_append_subset (h : typesIn ns ⊆ T) (h' : typesIn ns' ⊆ T) : typesIn (ns ++ ns') ⊆ T := by
  rw [typesIn_append]
  exact List.append_subset.mpr ⟨h, h'⟩

private theorem type_mem (h : typesIn e.nodes ⊆ T) (ht : e.info.type = some t) : t ∈ T :=
  h (List.mem_filterMap.mpr ⟨e, e.self_mem_nodes, ht⟩)

private theorem typesIn_nodesAll {es : List Expr} (h : typesIn (nodesAll es) ⊆ T) (he : e ∈ es) :
    typesIn e.nodes ⊆ T := by
  intro t ht
  obtain ⟨n, hn, hnt⟩ := List.mem_filterMap.mp ht
  exact h (List.mem_filterMap.mpr ⟨n, mem_nodesAll.mpr ⟨e, he, hn⟩, hnt⟩)

end Expr

namespace Action

open RainCheck.Expr (typesIn)

/-! ### Rules -/

/-- From types in use an action gives types in use. -/
def Gains (decls : List Decl) (T : List TypeId) {α : Type} (types : α → List TypeId) (a : Action α) : Prop :=
  ∀ s, s.Coherent decls → (∀ t ∈ T, s.Live t) → Coheres decls s a fun x s' => ∀ t ∈ types x, s'.Live t

section

variable {α β : Type} {decls : List Decl} {T : List TypeId} {types : α → List TypeId} {types' : β → List TypeId}
  {a : Action α} {f : α → Action β}

private theorem Gains.bind (h : Gains decls T types a) (hf : ∀ x, Gains decls (types x ++ T) types' (f x)) :
    Gains decls T types' (a >>= f) := fun s hs hT =>
  (h s hs hT).bind fun x s' hadvances hs' hx => hf x s' hs' fun t ht =>
    (List.mem_append.mp ht).elim (hx t) fun ht => (hT t ht).moves hadvances.toMovesTo

private theorem Gains.weaken {T' : List TypeId} (h : Gains decls T types a) (hT : T ⊆ T') : Gains decls T' types a :=
  fun s hs hT' => h s hs fun t ht => hT' t (hT ht)

private theorem gains_pure {x : α} (h : types x ⊆ T) : Gains decls T types (pure x) := fun _ hs hT =>
  coheres_pure hs fun t ht => hT t (h ht)

private theorem gains_refuse {span : Span} {cause : Cause} : Gains decls T types (refuse span cause) := fun _ hs _ =>
  coheres_refuse hs

private theorem gains_fail {g : Fault} : Gains decls T types (fail g) := fun _ _ _ => coheres_fail

private theorem gains_lift {r : Except Fault α} (h : ∀ x, r = .ok x → types x ⊆ T) : Gains decls T types (lift r) := by
  cases r with
  | ok x => exact gains_pure (h x rfl)
  | error g => exact gains_fail

private theorem Reads.gains (h : a.Reads) : Gains decls T (fun _ => []) a := fun _ hs _ =>
  (h.coheres hs).mono fun _ _ _ _ _ => by simp

/-- A test that may end an action in front of what follows. -/
private theorem gains_test {c : Prop} [Decidable c] {refusal next : Action α} (hrefusal : Gains decls T types refusal)
    (hnext : Gains decls T types next) : Gains decls T types (if c then refusal else next) := by
  split
  · exact hrefusal
  · exact hnext

/-- What stands behind a refusal does not matter. -/
private theorem gains_refuse_bind {span : Span} {cause : Cause} :
    Gains decls T types' ((refuse span cause : Action α) >>= f) := by
  intro s hs _
  rintro _ rfl
  exact ⟨.refl _, hs⟩

end

section

variable {decls : List Decl} {T : List TypeId} {info : Info} {e : Expr} {t : TypeId} {fr : FrameId}

private theorem gains_typeOf (he : typesIn e.nodes ⊆ T) : Gains decls T (fun t => [t]) (typeOf e.info) :=
  gains_lift fun t ht => by simpa using Expr.type_mem he (unwrap_eq_ok_iff.mp ht)

private theorem gains_typeOfBlock {b : Block Expr} (hb : typesIn (Expr.nodesBlock b) ⊆ T) :
    Gains decls T (fun t => [t]) (typeOf b.info) :=
  gains_typeOf (e := .block b) (by rwa [Expr.nodes])

/-- What stands behind a reference is in use. -/
private theorem gains_load (ht : t ∈ T) : Gains decls T (fun u => [u]) (load t) := by
  intro s hs hT
  have hload : Coheres decls s (load t) fun u s' => s' = s ∧ s.types.load t = .ok u :=
    (reads_fromTypes.coheres hs).mono fun u s' _ _ h => ⟨h.1, (yields_fromTypes.mp h.2).1⟩
  refine hload.mono fun u s' _ _ ⟨heq, hu⟩ => ?_
  subst heq
  have hlive := hT t ht
  obtain ⟨e, he, -⟩ := id hlive
  rw [Types.load, Store.get_of_entry he, ok_bind, pure_eq_ok] at hu
  obtain rfl := Except.ok.inj hu
  cases e with
  | reference inner => simpa [TypeEntry.inner?] using hs.types.references t inner he
  | primitive | struct | function => simpa [TypeEntry.inner?] using hlive

/-- An action that reads something off the types, and what is done with it. -/
private theorem gains_textOf {α : Type} {types : α → List TypeId} {f : String → Action α}
    (h : ∀ text, Gains decls T types (f text)) : Gains decls T types (textOf t >>= f) :=
  reads_textOf.gains.bind fun text => by simpa using h text

private theorem gains_settle (h : info.type.toList ⊆ T) : Gains decls T (fun i => i.type.toList) (settle info) := by
  refine Reads.gains (reads_lift (r := unwrap info.type)) |>.bind fun _ => ?_
  exact reads_fromTypes.gains.bind fun _ => gains_pure (by simpa using h)

private theorem gains_complete (ht : t ∈ T) {use : Span} :
    Gains decls T (fun u => [u]) (complete use t) := fun s hs hT =>
  (coheres_complete hs (hT t ht)).mono fun u _ _ _ hu => by simpa using hu.1

private theorem gains_resolveType {declared : TypeExpr} :
    Gains decls T (fun u => [u]) (resolveType fr declared) := fun _ hs _ =>
  (coheres_resolveType hs).mono fun u _ _ _ hu => by simpa using hu.1

private theorem gains_signature {key : Span} {declared : Prototype} :
    Gains decls T (fun u => [u]) (resolveSignature fr key declared) := fun _ hs _ =>
  (coheres_signature hs).mono fun u _ _ _ hu => by simpa using hu

/-- What is known about a node is a type in use, or a primitive one. -/
private theorem gains_info {i : Info} (hi : i.type = some t) (ht : t ∈ T ∨ ∃ name, Types.primitives[t]? = some name) :
    Gains decls T (fun i => i.type.toList) (pure i) := fun s hs hT => by
  refine coheres_pure hs fun u hu => ?_
  obtain rfl : u = t := by simpa [hi] using hu
  rcases ht with ht | ⟨name, hname⟩
  · exact hT u ht
  · exact hs.types.primitive hname

private theorem gains_identifier {name : String} :
    Gains decls T (fun r => r.2.type.toList) (identifierRule fr info name) := by
  intro s hs _
  refine coheres_get (coheres_lift fun found hfound => ?_)
  cases found with
  | none => exact coheres_refuse hs
  | some v =>
    obtain ⟨g, f, p, hf, hp, rfl⟩ := exists_of_lookup hfound
    have hvariable : Coheres decls s (resolveVariable p.2) fun _ _ => True := by
      refine coheres_get ?_
      split
      · exact (coheres_signature hs).bind fun _ _ _ hs' _ => coheres_pure hs' trivial
      · exact coheres_pure hs trivial
    refine hvariable.bind fun _ s₁ hadvances hs₁ _ => coheres_get (coheres_lift fun t ht => coheres_pure hs₁ ?_)
    have hvalue : (s₁.typeOf p.2).value? = some t := by
      unfold Holder.get at ht
      split at ht <;> cases ht
      assumption
    -- the type of a function is kept on its record, that of anything else with the variable
    have hlive : s₁.Live t := by
      unfold Store.typeOf at hvalue
      split at hvalue
      · cases hrecord : (s₁.function p.2.span).variableType with
        | none =>
          rw [hrecord] at hvalue
          cases hvalue
        | some v =>
          rw [hrecord] at hvalue
          exact hs₁.names.variableType _ v hrecord t hvalue
      · exact (hs.names.values f (List.mem_of_getElem? hf) p hp t hvalue).moves hadvances.toMovesTo
    simpa [Info.resolve] using hlive

/-- The types of fields are in use. -/
private theorem gains_fieldsOf : Gains decls T (fun r => r.2.map (·.2)) (fieldsOf t) := by
  intro s hs _
  refine coheres_fromTypes fun e he => ?_
  have ht : s.typeAt? t = some e := itemAt_eq_ok_iff.mp he
  cases e with
  | struct decl state => exact coheres_pure hs fun u hu => (hs.types.contents t _ ht u hu).1
  | primitive | reference | function => exact coheres_fail

private theorem gains_structAt {α : Type} {types : α → List TypeId} {f : TypeEntry → Action α}
    (h : ∀ e, Gains decls T types (f e)) : Gains decls T types (fromTypes (·.get t) >>= f) :=
  reads_fromTypes.gains.bind fun e => by simpa using h e

private theorem gains_member {name : String} {span : Span} (he : typesIn e.nodes ⊆ T) :
    Gains decls T (fun r => r.2.type.toList) (memberRule info e name span) := by
  refine (gains_typeOf he).bind fun outer => (gains_load (by simp)).bind fun t => gains_structAt fun entry => ?_
  cases entry.struct? with
  | none => exact gains_textOf fun _ => gains_refuse
  | some _ =>
    refine (gains_complete (by simp)).bind fun _ => gains_fieldsOf.bind fun found => ?_
    obtain ⟨owner, fields⟩ := found
    dsimp only
    cases fields.findIdx? (·.1 = name) with
    | none => exact gains_refuse
    | some index =>
      have hfield :
          Gains decls (fields.map (·.2)) (fun field : String × TypeId => [field.2]) (lift (itemAt fields index)) :=
        gains_lift fun field hfield => by
          simpa using ⟨_, List.mem_of_getElem? (itemAt_eq_ok_iff.mp hfield)⟩
      refine (hfield.weaken (List.subset_append_left _ _)).bind fun field => gains_info rfl (.inl (by simp))

private theorem gains_call {callee : Expr} {args : List Expr} (hcallee : typesIn callee.nodes ⊆ T) :
    Gains decls T (fun i => i.type.toList) (callRule info callee args) := by
  refine (gains_typeOf hcallee).bind fun t s hs hT => coheres_fromTypes fun entry hentry => ?_
  have ht : s.typeAt? t = some entry := itemAt_eq_ok_iff.mp hentry
  cases entry with
  | function params returns =>
    have hreturns : s.Live returns := (hs.types.contents t _ ht returns (by simp [TypeEntry.contents])).1
    have hrest : Gains decls [returns] (fun i => i.type.toList) (do
        if params.length ≠ args.length then refuse info.span (.arityMismatch params.length args.length)
        expectAll args params
        return info.resolve returns false false) := by
      refine gains_test gains_refuse_bind ((reads_expectAll args params).gains.bind fun _ => ?_)
      exact gains_info rfl (.inl (by simp))
    exact hrest s hs (by simpa using hreturns)
  | primitive | struct | reference => exact gains_textOf (T := []) (fun _ => gains_refuse) s hs (by simp)

private theorem operationInfo_type {value : Option Value} {compileTime : Bool} :
    (operationInfo info t value compileTime).type = some t := by
  cases value <;> rfl

private theorem gains_unary {op : UnaryOp} (he : typesIn e.nodes ⊆ T) :
    Gains decls T (fun i => i.type.toList) (unaryRule info op e) := by
  have hnegation :
      ∀ op expected takes, Gains decls T (fun i => i.type.toList) (negationRule info op e expected takes) := by
    intro op expected takes
    refine (gains_typeOf he).bind fun outer => (gains_load (by simp)).bind fun t => ?_
    exact gains_test (gains_textOf fun _ => gains_refuse_bind) (gains_info operationInfo_type (.inl (by simp)))
  cases op with
  | negate => exact hnegation _ _ _
  | invert => exact hnegation _ _ _
  | address =>
    refine (gains_typeOf he).bind fun t => reads_lift.gains.bind fun _ => gains_test gains_refuse_bind ?_
    have hreference : Gains decls [t] (fun u => [u]) (updateTypes (·.reference t)) := fun s hs hT =>
      (coheres_reference hs (hT t (by simp))).mono fun u _ _ _ hu => by simpa using hu.1
    exact (hreference.weaken (by simp)).bind fun u => gains_info rfl (.inl (by simp))

private theorem gains_binary {op : BinaryOp} {lhs rhs : Expr} (hlhs : typesIn lhs.nodes ⊆ T)
    (hrhs : typesIn rhs.nodes ⊆ T) :
    Gains decls T (fun i => i.type.toList) (binaryRule info op lhs rhs) := by
  refine (gains_typeOf hlhs).bind fun _ => (gains_load (by simp)).bind fun left => ?_
  refine (gains_typeOf fun _ h => by simp [hrhs h]).bind fun _ => (gains_load (by simp)).bind fun right => ?_
  refine gains_test (gains_textOf fun _ => gains_refuse_bind) ?_
  refine gains_test (gains_textOf fun _ => gains_textOf fun _ => gains_refuse_bind) ?_
  refine reads_foldOperands.gains.bind fun _ => gains_info operationInfo_type ?_
  split
  · exact .inr ⟨"bool", rfl⟩
  · exact .inl (by simp)

private theorem gains_assignment {target source : Expr} :
    Gains decls T (fun i => i.type.toList) (assignmentRule info target source) := by
  refine reads_expectMutable.gains.bind fun _ => reads_lift.gains.bind fun _ => gains_test gains_refuse_bind ?_
  refine reads_typeOf.gains.bind fun _ => reads_load.gains.bind fun _ => reads_expectType.gains.bind fun _ => ?_
  exact gains_info rfl (.inr ⟨"void", rfl⟩)

/-- A builtin gives the type of its first argument, or a primitive one. -/
private theorem result_cases (b : Builtin) (t : TypeId) :
    b.family.result t = t ∨ ∃ name, Types.primitives[b.family.result t]? = some name := by
  cases b <;> first | exact .inl rfl | exact .inr ⟨_, rfl⟩

private theorem gains_builtin {options : Options} {b : Builtin} {args : List Expr}
    (hargs : ∀ e ∈ args, typesIn e.nodes ⊆ T) :
    Gains decls T (fun i => i.type.toList) (builtinRule options info b args) := by
  refine gains_test gains_refuse_bind ?_
  cases args with
  | nil => exact gains_fail
  | cons first rest =>
    refine (gains_typeOf (hargs first List.mem_cons_self)).bind fun _ => (gains_load (by simp)).bind fun t => ?_
    refine gains_test (gains_textOf fun _ => gains_refuse_bind) ?_
    refine reads_matchSecond.gains.bind fun _ => reads_expectFeature.gains.bind fun _ =>
      reads_foldArguments.gains.bind fun _ => gains_info operationInfo_type ?_
    exact (result_cases b t).imp_left fun heq => by simp [heq]

private theorem gains_literalStruct {name : String} : Gains decls T (fun r => [r.1]) (literalStruct fr info name) := by
  intro s hs _
  refine coheres_get (coheres_lift fun found hfound => ?_)
  cases found with
  | none => exact coheres_refuse hs
  | some t =>
    have hlive : s.Live t := live_lookupType hs hfound
    refine gains_structAt (T := [t]) (fun entry => ?_) s hs (by simpa using hlive)
    cases entry.struct? with
    | none => exact gains_refuse
    | some _ =>
      refine (gains_complete (by simp)).bind fun _ => gains_fieldsOf.bind fun found => ?_
      obtain ⟨owner, fields⟩ := found
      exact gains_pure (by simp)

private theorem gains_literal {owner : String} {declared : List (String × TypeId)}
    {inits : List (FieldInit Expr)} (ht : t ∈ T) :
    Gains decls T (fun i => i.type.toList) (literalRule info t owner declared inits) := by
  unfold literalRule
  split
  · exact gains_refuse
  · exact gains_info rfl (.inl ht)

private theorem gains_let {binding : Holder Variable} {declared : Option TypeExpr} (he : typesIn e.nodes ⊆ T) :
    Gains decls T (fun v => v.type.value?.toList) (letRule fr binding declared e) := by
  refine reads_lift.gains.bind fun v => ?_
  cases declared with
  | none => exact (gains_typeOf he).bind fun t => gains_pure (by simp [Holder.value?])
  | some declared =>
    refine gains_resolveType.bind fun t => reads_expectType.gains.bind fun _ => gains_pure ?_
    simp [Holder.value?]

private theorem gains_declare {v : Variable} (hv : v.type.value?.toList ⊆ T) :
    Gains decls T (fun _ => []) (declare fr v) :=
  fun _ hs hT => (coheres_declare hs fun t ht => hT t (hv (by simp [ht]))).mono fun _ _ _ _ _ => by simp

private theorem gains_nest : Gains decls T (fun _ => []) (nest fr) := fun _ hs _ =>
  (coheres_nest hs).mono fun _ _ _ _ _ => by simp

private theorem gains_block {stmts : List Expr} {tail : Option Expr} (htail : ∀ e ∈ tail, typesIn e.nodes ⊆ T) :
    Gains decls T (fun i => i.type.toList) (blockRule info stmts tail) := by
  cases tail with
  | some e => exact (gains_typeOf (htail e rfl)).bind fun t => gains_info rfl (.inl (by simp))
  | none =>
    refine gains_info rfl (.inr ?_)
    split
    · exact ⟨"never", rfl⟩
    · exact ⟨"void", rfl⟩

private theorem gains_if {thenBlock : Block Expr} {other : Option Expr} (hinfo : info.type.toList ⊆ T)
    (hthen : typesIn (Expr.nodesBlock thenBlock) ⊆ T) (hother : ∀ e ∈ other, typesIn e.nodes ⊆ T) :
    Gains decls T (fun i => i.type.toList) (ifRule info thenBlock other) := by
  cases other with
  | none => exact reads_expectType.gains.bind fun _ => gains_info rfl (.inr ⟨"void", rfl⟩)
  | some e =>
    refine (gains_typeOfBlock hthen).bind fun thenType => ?_
    refine (gains_typeOf fun _ h => by simp [hother e rfl h]).bind fun elseType => ?_
    refine reads_fromTypes.gains.bind fun _ => gains_test (gains_info rfl (.inl (by simp))) ?_
    refine reads_fromTypes.gains.bind fun _ => gains_test (gains_info rfl (.inl (by simp))) ?_
    exact reads_expectType.gains.bind fun _ => gains_pure fun _ h => by simp [hinfo h]

private theorem gains_loop {body : Block Expr} (ht : ∃ name, Types.primitives[t]? = some name) :
    Gains decls T (fun i => i.type.toList) (do
      expectBlock body TypeId.void
      return info.resolve t false false) :=
  reads_expectType.gains.bind fun _ => gains_info rfl (.inr ht)

private theorem gains_jump {keyword : String} {inLoop : Bool} :
    Gains decls T (fun i => i.type.toList) (jumpRule info keyword inLoop) :=
  gains_test gains_refuse_bind (gains_info rfl (.inr ⟨"never", rfl⟩))

private theorem gains_return {returns : Option TypeId} {result : Option Expr} :
    Gains decls T (fun i => i.type.toList) (returnRule info returns result) := by
  cases returns with
  | none => exact gains_refuse
  | some r => exact reads_expectResult.gains.bind fun _ => gains_info rfl (.inr ⟨"never", rfl⟩)

private theorem gains_enterNested {header : Header} : Gains decls T (fun _ => []) (enterNested fr header) := by
  have hregister : Gains decls T (fun _ => []) (registerFunction fr header) := fun _ hs _ =>
    (coheres_registerFunction hs).mono fun _ _ _ _ _ => by simp
  exact hregister.bind fun _ => gains_nest.bind fun own =>
    (gains_declare (by simp [Header.binding, Holder.value?])).bind
    fun _ => gains_pure (by simp)

private theorem gains_enterFunction {header : Header} :
    Gains decls T (fun entry => entry.signature :: entry.params) (enterFunction fr header) := by
  refine gains_signature.bind fun sig s hs hT => coheres_fromTypes fun entry hentry => ?_
  have hsig : s.typeAt? sig = some entry := itemAt_eq_ok_iff.mp hentry
  cases entry with
  | function params returns =>
    have hnest : Gains decls (sig :: params) (fun entry : Entry => entry.signature :: entry.params) (do
        return ⟨sig, params, returns, ← nest fr⟩) :=
      gains_nest.bind fun _ => gains_pure (by simp)
    refine hnest s hs (List.forall_mem_cons.mpr ⟨hT sig (by simp), fun p hp => ?_⟩)
    exact (hs.types.contents sig _ hsig p (by simp [TypeEntry.contents, hp])).1
  | primitive | struct | reference => exact coheres_fail

end

end Action

/-! ### Walks -/

/-- The store of a walk is coherent and follows a given one, and certain types are in use; after a
fault all this is open. -/
def CheckState.Holds (decls : List Decl) (s₀ : Store) (T : List TypeId) (st : CheckState) : Prop :=
  match st.stop with
  | some (.fault _) => True
  | _ => s₀.AdvancesTo st.store ∧ st.store.Coherent decls ∧ ∀ t ∈ T, st.store.Live t

private theorem CheckState.Holds.mono {decls : List Decl} {s₀ : Store} {T T' : List TypeId} {st : CheckState}
    (h : st.Holds decls s₀ T) (hT : T' ⊆ T) : st.Holds decls s₀ T' := by
  obtain ⟨store, loops, stop⟩ := st
  rcases stop with _ | d | g
  · exact ⟨h.1, h.2.1, fun t ht => h.2.2 t (hT ht)⟩
  · exact ⟨h.1, h.2.1, fun t ht => h.2.2 t (hT ht)⟩
  · trivial

namespace Check

open RainCheck.Expr (typesIn nodes nodesAll nodesBlock nodesFields nodesOption)

/-- From types in use a walk gives types in use. -/
def Gains (decls : List Decl) (T : List TypeId) {α : Type} (types : α → List TypeId) (a : Check α) : Prop :=
  ∀ s₀ U st, T ⊆ U → CheckState.Holds decls s₀ U st → (a.run st).2.Holds decls s₀ (types (a.run st).1 ++ U)

variable {α β : Type} {decls : List Decl} {T : List TypeId} {types : α → List TypeId}
  {types' : β → List TypeId} {a : Check α}
  {f : α → Check β} {c : Context} {fr : FrameId} {info : Info}

private theorem gains_pure {x : α} (h : types x ⊆ T) : Gains decls T types (pure x) := fun _ _ _ hU hst =>
  hst.mono (List.append_subset.mpr ⟨List.Subset.trans h hU, List.Subset.refl _⟩)

/-- What is added to a list can be added to a longer one. -/
private theorem append_subset_append {ts T U : List TypeId} (h : T ⊆ U) : ts ++ T ⊆ ts ++ U :=
  List.append_subset.mpr ⟨List.subset_append_left _ _, List.Subset.trans h (List.subset_append_right _ _)⟩

private theorem Gains.bind (h : Gains decls T types a) (hf : ∀ x, Gains decls (types x ++ T) types' (f x)) :
    Gains decls T types' (a >>= f) := fun s₀ U st hU hst =>
  (hf (a.run st).1 s₀ _ _ (append_subset_append hU) (h s₀ U st hU hst)).mono
    (append_subset_append (List.subset_append_right _ _))

private theorem gains_get {f : CheckState → Check β} (h : ∀ st, Gains decls T types' (f st)) :
    Gains decls T types' (get >>= f) :=
  fun s₀ U st hU hst => h st s₀ U st hU hst

/-- The loops around do not matter. -/
private theorem gains_loops {change : CheckState → List Bool} :
    Gains decls T (fun _ => []) (modify fun st => { st with loops := change st } : Check PUnit) :=
  fun _ _ _ _ hst => hst

private theorem gains_exitLoop : Gains decls T (fun _ => []) exitLoop := fun _ _ _ _ hst => hst

/-- A part that is left out if the walk has ended, or for another reason. -/
private theorem gains_unless {x : α} {skip : Bool → Bool} (hx : types x ⊆ T) (h : Gains decls T types a) :
    Gains decls T types (do if skip (← stopped) then return x else a) := by
  refine gains_get fun st => ?_
  split
  · exact gains_pure hx
  · exact h

/-- What follows an action, whether it gave a result or not. -/
private theorem gains_attempt {b : Action α} {f : Option α → Check β} (h : Action.Gains decls T types b)
    (hnone : Gains decls T types' (f none)) (hsome : ∀ x, Gains decls (types x ++ T) types' (f (some x))) :
    Gains decls T types' (attempt b >>= f) := by
  rintro s₀ U ⟨store, loops, stop⟩ hU hst
  have hrun : (attempt b >>= f).run ⟨store, loops, stop⟩ =
      (f ((attempt b).run ⟨store, loops, stop⟩).1).run ((attempt b).run ⟨store, loops, stop⟩).2 := rfl
  rw [hrun]
  cases stop with
  | some why =>
    rw [run_attempt_ended rfl]
    exact hnone s₀ U _ hU hst
  | none =>
    obtain ⟨hadvances, hs, hlive⟩ := hst
    have hend := h store hs (fun t ht => hlive t (hU ht)) store rfl
    rw [run_attempt rfl]
    rcases hresult : b.run.run store with ⟨(d | g) | x, s'⟩ <;> rw [hresult] at hend
    · exact hnone s₀ U _ hU ⟨hadvances.trans hend.1, hend.2, fun t ht => (hlive t ht).moves hend.1.toMovesTo⟩
    · exact hnone s₀ U _ hU trivial
    · have hgained : CheckState.Holds decls s₀ (types x ++ U) ⟨s', loops, none⟩ :=
        ⟨hadvances.trans hend.1, hend.2.1, fun t ht =>
          (List.mem_append.mp ht).elim (hend.2.2 t) fun ht => (hlive t ht).moves hend.1.toMovesTo⟩
      exact (hsome x s₀ _ _ (append_subset_append hU) hgained).mono
        (append_subset_append (List.subset_append_right _ _))

private theorem gains_demand {b : Action Unit} (h : b.Reads) : Gains decls T (fun _ => []) (demand b) :=
  gains_attempt h.gains (gains_pure (by simp)) fun _ => gains_pure (by simp)

/-- A node gets what its rule says about it. -/
private theorem gains_node {make : Info → β} {rule : Action Info}
    (h : Action.Gains decls T (fun i => i.type.toList) rule)
    (hinfo : info.type.toList ⊆ T) (hmake : ∀ i : Info, types' (make i) ⊆ i.type.toList ++ T) :
    Gains decls T types' (do return make (← conclude info rule)) := by
  have hrule : Action.Gains decls T (fun i => i.type.toList) (do Action.settle (← rule)) :=
    h.bind fun i => Action.gains_settle (by simp)
  have hconclude : Gains decls T (fun i => i.type.toList) (conclude info rule) :=
    gains_attempt hrule (gains_pure hinfo) fun i => gains_pure (by simp)
  exact hconclude.bind fun i => gains_pure (hmake i)

/-- A node whose parts have types in use gets what its rule says about it. -/
private theorem gains_parts {make : Info → Expr} {ns : List Expr} {rule : Action Info}
    (h : Action.Gains decls T (fun i => i.type.toList) rule) (hinfo : info.type.toList ⊆ T)
    (hnodes : ∀ i, (make i).nodes = make i :: ns) (hmade : ∀ i, (make i).info = i) (hns : typesIn ns ⊆ T) :
    Gains decls T (fun e => typesIn e.nodes) (do return make (← conclude info rule)) := by
  refine gains_node h hinfo fun i => ?_
  rw [hnodes, Expr.typesIn_cons, hmade]
  exact append_subset_append hns

private theorem gains_bindParams {ps : List Param} {ts : List TypeId} (hts : ts ⊆ T) :
    Gains decls T (fun _ => []) (bindParams fr ps ts) := by
  induction ps generalizing ts with
  | nil => exact gains_pure (by simp)
  | cons p rest ih =>
    cases ts with
    | nil => exact (gains_demand Action.reads_fail).bind fun _ => gains_pure (by simp)
    | cons t ts =>
      obtain ⟨ht, hts⟩ := List.cons_subset.mp hts
      have hdeclare : Gains decls T (fun _ => []) (demand (Action.declare fr { p.binding with type := .borrowed t })) :=
        gains_attempt (Action.gains_declare (by simpa [Holder.value?] using ht)) (gains_pure (by simp))
          fun _ => gains_pure (by simp)
      have hrest : Gains decls T (fun _ => []) (do
          demand (Action.declare fr { p.binding with type := .borrowed t })
          let rest ← bindParams fr rest ts
          return { p with binding := { p.binding with type := .borrowed t } } :: rest) :=
        hdeclare.bind fun _ => (ih (by simpa using hts)).bind fun _ => gains_pure (by simp)
      refine gains_get fun st => ?_
      split
      · exact gains_pure (by simp)
      · exact hrest

theorem gains_functionWith {options : Options} {header : Header} {body : Block Expr}
    {walk : Context → FrameId → Check (Block Expr)}
    (hT : typesIn (nodes (.function info header body)) ⊆ T)
    (hwalk : ∀ T' c fr, typesIn (nodesBlock body) ⊆ T' → Gains decls T' (fun b => typesIn (nodesBlock b)) (walk c fr)) :
    Gains decls T (fun r => typesIn (nodes (.function r.1 r.2.1 r.2.2)))
      (functionWith options fr info header body walk) := by
  obtain ⟨hinfo, hbody⟩ : info.type.toList ⊆ T ∧ typesIn (nodesBlock body) ⊆ T := by
    simpa [nodes, Expr.info] using hT
  unfold functionWith
  split
  · exact gains_pure hT
  refine gains_attempt Action.gains_enterFunction (gains_pure hT) fun entry => ?_
  refine (gains_bindParams (by simp)).bind fun params => gains_get fun st => gains_loops.bind fun _ => ?_
  refine (hwalk _ _ _ fun t ht => by simp [hbody ht]).bind fun body' => gains_loops.bind fun _ => ?_
  refine gains_node ?_ (fun t ht => by simp [hinfo ht]) fun i t ht => ?_
  · exact Action.reads_expectType.gains.bind fun _ => Action.gains_info rfl (.inl (by simp))
  · simp only [nodes, Expr.info, Expr.typesIn_cons, List.mem_append] at ht ⊢
    tauto

variable (decls) in
/-- What is written on the expression when it is checked are types in use. -/
def GainsExpr (e : Expr) : Prop :=
  ∀ {T : List TypeId}, typesIn e.nodes ⊆ T → ∀ (c : Context) (fr : FrameId),
    Gains decls T (fun e => typesIn e.nodes) (Check.expr c fr e)

variable (decls) in
def GainsOption (e : Option Expr) : Prop :=
  ∀ {T : List TypeId}, typesIn (nodesOption e) ⊆ T → ∀ (c : Context) (fr : FrameId),
    Gains decls T (fun e => typesIn (nodesOption e)) (Check.option c fr e)

variable (decls) in
def GainsExprs (es : List Expr) : Prop :=
  ∀ {T : List TypeId}, typesIn (nodesAll es) ⊆ T → ∀ (c : Context) (fr : FrameId),
    Gains decls T (fun es => typesIn (nodesAll es)) (Check.exprs c fr es)

variable (decls) in
def GainsFields (inits : List (FieldInit Expr)) : Prop :=
  ∀ {T : List TypeId}, typesIn (nodesFields inits) ⊆ T →
    ∀ (c : Context) (fr : FrameId) (owner : String) (declared : List (String × TypeId)) (seen : List String),
      Gains decls T (fun inits => typesIn (nodesFields inits)) (Check.fields c fr owner declared seen inits)

variable (decls) in
def GainsBlock (b : Block Expr) : Prop :=
  ∀ {T : List TypeId}, typesIn (nodesBlock b) ⊆ T → ∀ (c : Context) (fr : FrameId),
    Gains decls T (fun b => typesIn (nodesBlock b)) (Check.block c fr b)

private theorem gains_identifierExpr {name : String} {binding : Option Variable} :
    GainsExpr decls (.identifier info name binding) := by
  intro T hT c fr
  rw [Check.expr]
  refine gains_unless hT ?_
  have hinfo : info.type.toList ⊆ T := by simpa [nodes, Expr.info] using hT
  refine gains_attempt Action.gains_identifier (gains_pure hT) fun found => ?_
  exact gains_node (Action.gains_pure (by simp)) (fun t ht => by simp [hinfo ht]) fun i => by simp [nodes, Expr.info]

private theorem gains_memberExpr {base : Expr} {name : String} {nameSpan : Span} {index : Nat}
    (hbase : GainsExpr decls base) :
    GainsExpr decls (.member info base name nameSpan index) := by
  intro T hT c fr
  rw [Check.expr]
  refine gains_unless hT ?_
  obtain ⟨hinfo, hT⟩ : info.type.toList ⊆ T ∧ typesIn base.nodes ⊆ T := by simpa [nodes, Expr.info] using hT
  refine (hbase hT c fr).bind fun base => gains_attempt (Action.gains_member (by simp)) ?_ fun found => ?_
  · refine gains_pure fun t ht => ?_
    simp only [nodes, Expr.info, Expr.typesIn_cons, List.mem_append] at ht ⊢
    exact ht.symm.imp_right (@hinfo t)
  · exact gains_parts (Action.gains_pure (by simp)) (fun t ht => by simp [hinfo ht]) (fun _ => by rw [nodes])
      (fun _ => rfl) fun t ht => by simp [ht]

private theorem gains_callExpr {callee : Expr} {args : List Expr} (hcallee : GainsExpr decls callee)
    (hargs : GainsExprs decls args) :
    GainsExpr decls (.call info callee args) := by
  intro T hT c fr
  rw [Check.expr]
  refine gains_unless hT ?_
  obtain ⟨hinfo, hTcallee, hTargs⟩ : info.type.toList ⊆ T ∧ typesIn callee.nodes ⊆ T ∧ typesIn (nodesAll args) ⊆ T := by
    simpa [nodes, Expr.info] using hT
  refine (hcallee hTcallee c fr).bind fun callee => (hargs (fun t ht => by simp [hTargs ht]) c fr).bind fun args => ?_
  exact gains_parts (Action.gains_call fun t ht => by simp [ht]) (fun t ht => by simp [hinfo ht])
    (fun _ => by rw [nodes]) (fun _ => rfl) (Expr.typesIn_append_subset (fun t ht => by simp [ht]) (by simp))

private theorem gains_builtinCall {name : String} {args : List Expr} (hargs : GainsExprs decls args) :
    GainsExpr decls (.builtinCall info name args) := by
  intro T hT c fr
  rw [Check.expr]
  refine gains_unless hT ?_
  obtain ⟨hinfo, hTargs⟩ : info.type.toList ⊆ T ∧ typesIn (nodesAll args) ⊆ T := by simpa [nodes, Expr.info] using hT
  refine gains_attempt Action.reads_findBuiltin.gains (gains_pure hT) fun b => ?_
  refine (hargs hTargs c fr).bind fun args => ?_
  exact gains_parts (Action.gains_builtin fun e he => Expr.typesIn_nodesAll (by simp) he)
    (fun t ht => by simp [hinfo ht])
    (fun _ => by rw [nodes]) (fun _ => rfl) (by simp)

private theorem gains_unaryExpr {op : UnaryOp} {operand : Expr} (hoperand : GainsExpr decls operand) :
    GainsExpr decls (.unary info op operand) := by
  intro T hT c fr
  rw [Check.expr]
  refine gains_unless hT ?_
  obtain ⟨hinfo, hToperand⟩ : info.type.toList ⊆ T ∧ typesIn operand.nodes ⊆ T := by simpa [nodes, Expr.info] using hT
  refine (hoperand hToperand c fr).bind fun operand => ?_
  exact gains_parts (Action.gains_unary (by simp)) (fun t ht => by simp [hinfo ht]) (fun _ => by rw [nodes])
    (fun _ => rfl) (by simp)

private theorem gains_binaryExpr {op : BinaryOp} {lhs rhs : Expr} (hlhs : GainsExpr decls lhs)
    (hrhs : GainsExpr decls rhs) :
    GainsExpr decls (.binary info op lhs rhs) := by
  intro T hT c fr
  rw [Check.expr]
  refine gains_unless hT ?_
  obtain ⟨hinfo, hTlhs, hTrhs⟩ : info.type.toList ⊆ T ∧ typesIn lhs.nodes ⊆ T ∧ typesIn rhs.nodes ⊆ T := by
    simpa [nodes, Expr.info] using hT
  refine (hlhs hTlhs c fr).bind fun lhs => (hrhs (fun t ht => by simp [hTrhs ht]) c fr).bind fun rhs => ?_
  exact gains_parts (Action.gains_binary (fun t ht => by simp [ht]) (by simp)) (fun t ht => by simp [hinfo ht])
    (fun _ => by rw [nodes]) (fun _ => rfl) (Expr.typesIn_append_subset (fun t ht => by simp [ht]) (by simp))

private theorem gains_assignmentExpr {target source : Expr} (htarget : GainsExpr decls target)
    (hsource : GainsExpr decls source) :
    GainsExpr decls (.assignment info target source) := by
  intro T hT c fr
  rw [Check.expr]
  refine gains_unless hT ?_
  obtain ⟨hinfo, hTtarget, hTsource⟩ : info.type.toList ⊆ T ∧ typesIn target.nodes ⊆ T ∧ typesIn source.nodes ⊆ T := by
    simpa [nodes, Expr.info] using hT
  refine (htarget hTtarget c fr).bind fun target =>
    (hsource (fun t ht => by simp [hTsource ht]) c fr).bind fun source => ?_
  exact gains_parts Action.gains_assignment (fun t ht => by simp [hinfo ht])
    (fun _ => by rw [nodes]) (fun _ => rfl) (Expr.typesIn_append_subset (fun t ht => by simp [ht]) (by simp))

private theorem gains_structLiteral {name : String} {inits : List (FieldInit Expr)} (hinits : GainsFields decls inits) :
    GainsExpr decls (.structLiteral info name inits) := by
  intro T hT c fr
  rw [Check.expr]
  refine gains_unless hT ?_
  obtain ⟨hinfo, hTinits⟩ : info.type.toList ⊆ T ∧ typesIn (nodesFields inits) ⊆ T :=
    by simpa [nodes, Expr.info] using hT
  refine gains_attempt Action.gains_literalStruct (gains_pure hT) fun found => ?_
  obtain ⟨type, owner, declared⟩ := found
  refine (hinits (fun t ht => by simp [hTinits ht]) c fr owner declared []).bind fun inits => ?_
  exact gains_parts (Action.gains_literal (by simp)) (fun t ht => by simp [hinfo ht]) (fun _ => by rw [nodes])
    (fun _ => rfl) (by simp)

private theorem gains_letBinding {binding : Holder Variable} {declared : Option TypeExpr} {init : Expr}
    (hinit : GainsExpr decls init) : GainsExpr decls (.letBinding info binding declared init) := by
  intro T hT c fr
  rw [Check.expr]
  refine gains_unless hT ?_
  obtain ⟨hinfo, hTinit⟩ : info.type.toList ⊆ T ∧ typesIn init.nodes ⊆ T := by simpa [nodes, Expr.info] using hT
  have hunchanged : ∀ (init : Expr) (b : Holder Variable) (U : List TypeId), typesIn init.nodes ⊆ U → T ⊆ U →
      typesIn (nodes (.letBinding info b declared init)) ⊆ U := by
    intro init b U hinit hU
    simpa [nodes, Expr.info] using ⟨List.Subset.trans hinfo hU, hinit⟩
  refine (hinit hTinit c fr).bind fun init => gains_attempt (Action.gains_let (by simp)) ?_ fun v => ?_
  · exact gains_pure (hunchanged init _ _ (by simp) (by simp))
  -- the variable has the type that it was found to have, which is in use
  have hdeclare : Action.Gains decls v.type.value?.toList (fun _ => []) (do
      Action.declare fr v
      Action.lift (binding.map fun _ => v).take) :=
    (Action.gains_declare (List.Subset.refl _)).bind fun _ => Action.reads_lift.gains
  refine gains_attempt (hdeclare.weaken (List.subset_append_left _ _)) ?_ fun taken => ?_
  · exact gains_pure (hunchanged init _ _ (fun t ht => by simp [ht]) fun t ht => by simp [ht])
  · exact gains_parts (Action.gains_info rfl (.inr ⟨"void", rfl⟩)) (fun t ht => by simp [hinfo ht])
      (fun _ => by rw [nodes]) (fun _ => rfl) fun t ht => by simp [ht]

private theorem gains_ifElse {cond : Expr} {thenBlock : Block Expr} {other : Option Expr} (hcond : GainsExpr decls cond)
    (hthen : GainsBlock decls thenBlock) (hother : GainsOption decls other) :
    GainsExpr decls (.ifElse info cond thenBlock other) := by
  intro T hT c fr
  rw [Check.expr]
  refine gains_unless hT ?_
  obtain ⟨hinfo, hTcond, hTthen, hTother⟩ : info.type.toList ⊆ T ∧ typesIn cond.nodes ⊆ T ∧
      typesIn (nodesBlock thenBlock) ⊆ T ∧ typesIn (nodesOption other) ⊆ T := by
    simpa [nodes, Expr.info] using hT
  refine (hcond hTcond c fr).bind fun cond => (gains_demand Action.reads_expectType).bind fun _ => ?_
  refine (hthen (fun t ht => by simp [hTthen ht]) c fr).bind fun thenBlock => ?_
  refine (hother (fun t ht => by simp [hTother ht]) c fr).bind fun other => ?_
  refine gains_parts (Action.gains_if (fun t ht => by simp [hinfo ht]) (fun t ht => by simp [ht]) ?_)
    (fun t ht => by simp [hinfo ht]) (fun _ => by rw [nodes]) (fun _ => rfl) ?_
  · rintro e he t ht
    obtain rfl : other = some e := he
    exact List.mem_append_left _ (by simpa [nodesOption] using ht)
  · refine Expr.typesIn_append_subset (Expr.typesIn_append_subset ?_ ?_) (by simp)
    · exact fun t ht => by simp [ht]
    · exact fun t ht => by simp [ht]

private theorem gains_whileLoop {cond : Expr} {body : Block Expr} (hcond : GainsExpr decls cond)
    (hbody : GainsBlock decls body) :
    GainsExpr decls (.whileLoop info cond body) := by
  intro T hT c fr
  rw [Check.expr]
  refine gains_unless hT ?_
  obtain ⟨hinfo, hTcond, hTbody⟩ : info.type.toList ⊆ T ∧ typesIn cond.nodes ⊆ T ∧ typesIn (nodesBlock body) ⊆ T := by
    simpa [nodes, Expr.info] using hT
  refine (hcond hTcond c fr).bind fun cond => (gains_demand Action.reads_expectType).bind fun _ => ?_
  refine gains_loops.bind fun _ => (hbody (fun t ht => by simp [hTbody ht]) c fr).bind fun body => ?_
  refine gains_exitLoop.bind fun _ => ?_
  exact gains_parts (Action.gains_loop ⟨"void", rfl⟩) (fun t ht => by simp [hinfo ht])
    (fun _ => by rw [nodes]) (fun _ => rfl)
    (Expr.typesIn_append_subset (fun t ht => by simp [ht]) fun t ht => by simp [ht])

private theorem gains_endlessLoop {body : Block Expr} (hbody : GainsBlock decls body) :
    GainsExpr decls (.endlessLoop info body) := by
  intro T hT c fr
  rw [Check.expr]
  refine gains_unless hT ?_
  obtain ⟨hinfo, hTbody⟩ : info.type.toList ⊆ T ∧ typesIn (nodesBlock body) ⊆ T := by simpa [nodes, Expr.info] using hT
  refine gains_loops.bind fun _ => (hbody (by simpa using hTbody) c fr).bind fun body => ?_
  refine gains_exitLoop.bind fun left => ?_
  refine gains_parts (Action.gains_loop ?_) (fun t ht => by simp [hinfo ht]) (fun _ => by rw [nodes]) (fun _ => rfl)
    fun t ht => by simp [ht]
  cases left
  · exact ⟨"never", rfl⟩
  · exact ⟨"void", rfl⟩

private theorem gains_jump {make : Info → Expr} {keyword : String} {note : Check Unit} {info : Info}
    (hexpr : ∀ {c fr}, Check.expr c fr (make info) = jump make keyword note info)
    (hnodes : ∀ i, (make i).nodes = [make i]) (hinfo : ∀ i, (make i).info = i)
    (hnote : ∀ {T}, Gains decls T (fun _ => []) note) : GainsExpr decls (make info) := by
  intro T hT c fr
  have hinT : info.type.toList ⊆ T := by simpa [hnodes, hinfo] using hT
  rw [hexpr, jump]
  refine gains_unless hT (gains_get fun st => hnote.bind fun _ => ?_)
  exact gains_node Action.gains_jump (by simpa using hinT) fun i => by simp [hnodes, hinfo]

private theorem gains_leaveFunction {result : Option Expr} (hresult : GainsOption decls result) :
    GainsExpr decls (.leaveFunction info result) := by
  intro T hT c fr
  rw [Check.expr]
  refine gains_unless hT ?_
  obtain ⟨hinfo, hTresult⟩ : info.type.toList ⊆ T ∧ typesIn (nodesOption result) ⊆ T := by
    simpa [nodes, Expr.info] using hT
  have hnode : ∀ {T : List TypeId} {result : Option Expr}, info.type.toList ⊆ T → typesIn (nodesOption result) ⊆ T →
      Gains decls T (fun e : Expr => typesIn e.nodes) (do
        return .leaveFunction (← conclude info (Action.returnRule info c.returns result)) result) :=
    fun hinfo hresult => gains_parts Action.gains_return hinfo (fun _ => by rw [nodes]) (fun _ => rfl) hresult
  dsimp only
  split
  · exact (hresult hTresult c fr).bind fun result => hnode (fun t ht => by simp [hinfo ht]) (by simp)
  · exact hnode hinfo hTresult

private theorem gains_function {header : Header} {body : Block Expr} (hbody : GainsBlock decls body) :
    GainsExpr decls (.function info header body) := by
  intro T hT c fr
  rw [Check.expr]
  refine gains_unless hT (gains_attempt Action.gains_enterNested (gains_pure hT) fun own => ?_)
  refine (gains_functionWith (by simpa using hT) fun T' c fr hT' => hbody hT' c fr).bind fun r => ?_
  exact gains_pure (by simp)

mutual

/-- What is written on an expression that is checked are types in use. -/
private theorem gains_expr (e : Expr) : GainsExpr decls e := by
  cases e with
  | integer info n =>
    intro T hT c fr
    have hinfo : info.type.toList ⊆ T := by simpa [nodes, Expr.info] using hT
    rw [Check.expr]
    refine gains_unless hT ?_
    exact gains_node (Action.gains_info rfl (.inr ⟨"i32", rfl⟩)) hinfo fun i => by simp [nodes, Expr.info]
  | float info x =>
    intro T hT c fr
    have hinfo : info.type.toList ⊆ T := by simpa [nodes, Expr.info] using hT
    rw [Check.expr]
    refine gains_unless hT ?_
    exact gains_node (Action.gains_info rfl (.inr ⟨"f64", rfl⟩)) hinfo fun i => by simp [nodes, Expr.info]
  | boolean info b =>
    intro T hT c fr
    have hinfo : info.type.toList ⊆ T := by simpa [nodes, Expr.info] using hT
    rw [Check.expr]
    refine gains_unless hT ?_
    exact gains_node (Action.gains_info rfl (.inr ⟨"bool", rfl⟩)) hinfo fun i => by simp [nodes, Expr.info]
  | identifier info name binding => exact gains_identifierExpr
  | member info base name nameSpan index => exact gains_memberExpr (gains_expr base)
  | call info callee args => exact gains_callExpr (gains_expr callee) (gains_exprs args)
  | builtinCall info name args => exact gains_builtinCall (gains_exprs args)
  | unary info op operand => exact gains_unaryExpr (gains_expr operand)
  | binary info op lhs rhs => exact gains_binaryExpr (gains_expr lhs) (gains_expr rhs)
  | assignment info target source => exact gains_assignmentExpr (gains_expr target) (gains_expr source)
  | structLiteral info name inits => exact gains_structLiteral (gains_fields inits)
  | letBinding info binding declared init => exact gains_letBinding (gains_expr init)
  | block b =>
    intro T hT c fr
    rw [Check.expr]
    exact gains_unless hT
      ((gains_blockOf b (by simpa [nodes] using hT) c fr).bind fun b => gains_pure (by simp [nodes]))
  | ifElse info cond thenBlock other =>
    exact gains_ifElse (gains_expr cond) (gains_blockOf thenBlock) (gains_option other)
  | whileLoop info cond body => exact gains_whileLoop (gains_expr cond) (gains_blockOf body)
  | endlessLoop info body => exact gains_endlessLoop (gains_blockOf body)
  | leaveLoop info => exact gains_jump expr_leaveLoop (by simp [nodes]) (fun _ => rfl) gains_loops
  | nextRound info => exact gains_jump expr_nextRound (by simp [nodes]) (fun _ => rfl) (gains_pure (by simp))
  | leaveFunction info result => exact gains_leaveFunction (gains_option result)
  | function info header body => exact gains_function (gains_blockOf body)

private theorem gains_option (e : Option Expr) : GainsOption decls e := by
  intro T hT c fr
  match e with
  | none =>
    rw [Check.option]
    exact gains_pure (by simp [nodesOption])
  | some e =>
    rw [Check.option]
    exact (gains_expr e (by simpa [nodesOption] using hT) c fr).bind fun e => gains_pure (by simp [nodesOption])

private theorem gains_exprs (es : List Expr) : GainsExprs decls es := by
  intro T hT c fr
  match es with
  | [] =>
    rw [Check.exprs]
    exact gains_pure (by simp [nodesAll])
  | e :: rest =>
    obtain ⟨he, hrest⟩ : typesIn e.nodes ⊆ T ∧ typesIn (nodesAll rest) ⊆ T := by simpa [nodesAll] using hT
    rw [Check.exprs]
    refine (gains_expr e he c fr).bind fun e =>
      (gains_exprs rest (fun t ht => by simp [hrest ht]) c fr).bind fun rest => ?_
    refine gains_pure fun t ht => ?_
    simp only [nodesAll, Expr.typesIn_append, List.mem_append] at ht ⊢
    tauto

private theorem gains_fields (inits : List (FieldInit Expr)) : GainsFields decls inits := by
  intro T hT c fr owner declared seen
  match inits with
  | [] =>
    rw [Check.fields]
    exact gains_pure (by simp [nodesFields])
  | ⟨name, span, value⟩ :: rest =>
    obtain ⟨hvalue, hrest⟩ : typesIn value.nodes ⊆ T ∧ typesIn (nodesFields rest) ⊆ T := by simpa [nodesFields] using hT
    rw [Check.fields]
    refine gains_attempt Action.reads_field.gains (gains_pure hT) fun t => ?_
    refine (gains_expr value hvalue c fr).bind fun value => (gains_demand Action.reads_expectType).bind fun _ => ?_
    refine (gains_fields rest (fun t ht => by simp [hrest ht]) c fr owner declared (name :: seen)).bind fun rest => ?_
    refine gains_pure fun t ht => ?_
    simp only [nodesFields, Expr.typesIn_append, List.mem_append] at ht ⊢
    tauto

theorem gains_blockOf (b : Block Expr) : GainsBlock decls b := by
  intro T hT c fr
  match b with
  | ⟨info, entered, stmts, tail⟩ =>
    obtain ⟨hinfo, hstmts, htail⟩ :
        info.type.toList ⊆ T ∧ typesIn (nodesAll stmts) ⊆ T ∧ typesIn (nodesOption tail) ⊆ T := by
      simpa [nodesBlock, Expr.info] using hT
    rw [Check.block]
    refine gains_unless hT (gains_attempt Action.gains_nest (gains_pure hT) fun inner => ?_)
    refine (gains_exprs stmts (by simpa using hstmts) c inner).bind fun stmts => ?_
    refine (gains_option tail (fun t ht => by simp [htail ht]) c inner).bind fun tail => ?_
    refine gains_node (Action.gains_block ?_) (fun t ht => by simp [hinfo ht]) fun i t ht => ?_
    · rintro e he t ht
      obtain rfl : tail = some e := he
      exact List.mem_append_left _ (by simpa [nodesOption] using ht)
    · simp only [nodesBlock, Expr.info, Expr.typesIn_cons, Expr.typesIn_append, List.mem_append] at ht ⊢
      tauto

end

end Check

end RainCheck
