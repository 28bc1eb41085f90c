import RainCheck.Proofs.Annotation
import RainCheck.Proofs.Constants

/-!
# The rules of expressions are sound

One statement per rule: applied to checked parts in a sound store, a rule raises no fault, keeps the store sound and
says about the expression what its annotation needs.
-/

namespace RainCheck

/-- What a rule says about a node: a type that can be used, and a value of that type if one is known. -/
structure Info.Proper (s : Store) (i : Info) (t : TypeId) : Prop where
  type : i.type = some t
  settled : s.Settled t
  value : ∀ v, i.value = some v → v.type = t

theorem Info.Proper.resolve {s : Store} {i : Info} {t : TypeId} {compileTime constant : Bool} (hi : i.value = none)
    (ht : s.Settled t) : (i.resolve t compileTime constant).Proper s t :=
  ⟨rfl, ht, fun v hv => by rw [show (i.resolve t compileTime constant).value = i.value from rfl, hi] at hv; cases hv⟩

theorem Info.Proper.fold {s : Store} {i : Info} {v : Value} (ht : s.Settled v.type) :
    (i.fold v.type v).Proper s v.type :=
  ⟨rfl, ht, fun w hw => by cases hw; rfl⟩

private theorem Info.Proper.operation {s : Store} {i : Info} {t : TypeId} {o : Option Value} {compileTime : Bool}
    (hi : i.value = none) (ht : s.Settled t) (ho : ∀ w, o = some w → w.type = t) :
    (Action.operationInfo i t o compileTime).Proper s t := by
  cases o with
  | none => exact .resolve hi ht
  | some w =>
    have hw := ho w rfl
    subst hw
    exact .fold ht

namespace Action

variable {α β : Type} {L : Listing} {s s' : Store} {P : β → Store → Prop} {R : Diagnostic → Prop}

/-! ### Expected types -/

/-- A refusal that is not about a declared type. -/
private theorem keeps_reject {span : Span} {cause : Cause} (hs : s.Sound L)
    (h : cause.kind ≠ .undefinedSymbol ∧ cause.kind ≠ .recursiveTypeDefinition) :
    Keeps L s (refuse span cause) P L.Allows :=
  keeps_refuse hs (.of_kind h)

private theorem keeps_rejectThen {f : α → Action β} {span : Span} {cause : Cause} (hs : s.Sound L)
    (h : cause.kind ≠ .undefinedSymbol ∧ cause.kind ≠ .recursiveTypeDefinition) :
    Keeps L s (refuse span cause >>= f) P L.Allows :=
  ends_bind.mpr (ends_refuse.mpr ⟨hs, .refl s, .of_kind h⟩)

private theorem keeps_typeOf {f : TypeId → Action β} {i : Info} {t : TypeId} (hi : i.type = some t)
    (h : Keeps L s (f t) P R) : Keeps L s (typeOf i >>= f) P R := by
  unfold typeOf
  rw [hi]
  exact keeps_lift (unwrap_some t) h

/-- Behind a known type there is a known type. -/
theorem loads_known {t : TypeId} (hs : s.Sound L) (ht : s.Known t) : ∃ u, s.Loads t u ∧ s.Known u := by
  obtain ⟨e, hget, he⟩ := ht.get
  refine ⟨e.inner?.getD t, by simp [Store.Loads, Types.load, hget], ?_⟩
  cases e with
  | reference inner => exact (hs.types.references t inner he).2
  | _ => exact ht

private theorem keeps_load {f : TypeId → Action β} {t u : TypeId} (hu : s.Loads t u) (h : Keeps L s (f u) P R) :
    Keeps L s (load t >>= f) P R :=
  keeps_fromTypes hu h

theorem loads_value {t u : TypeId} {v : Value} (hs : s.Sound L) (hv : v.type = t) (hu : s.Loads t u) : u = t := by
  obtain ⟨name, he⟩ := hs.types.value v
  rw [hv] at he
  have hload : s.types.load t = .ok t := by simp [Types.load, Store.get_of_entry he, TypeEntry.inner?]
  rw [show s.types.load t = .ok u from hu] at hload
  cases hload
  rfl

private theorem assignable_cases {t : TypeId} (ht : s.Known t) (u : TypeId) : ∃ b, s.types.assignable t u = .ok b := by
  obtain ⟨e, hget, -⟩ := ht.get
  unfold Types.assignable
  split
  · exact ⟨true, rfl⟩
  · exact ⟨_, by rw [hget]; rfl⟩

/-- An expected type is refused, or what has it fits. -/
private theorem keeps_expectType {blame : Span} {t u : TypeId} (hs : s.Sound L) (ht : s.Known t) (hu : s.Known u) :
    Keeps L s (expectType blame (some t) u) (fun _ s' => s'.Assignable t u) L.Allows := by
  unfold expectType
  refine keeps_lift (unwrap_some t) ?_
  obtain ⟨b, hb⟩ := assignable_cases ht u
  refine keeps_fromTypes hb ?_
  cases b with
  | true => exact keeps_pure hs hb
  | false => exact keeps_textOf hs hu fun _ => keeps_textOf hs ht fun _ => keeps_reject hs (by simp [Cause.kind])

theorem keeps_expectExpr {e : Expr} {t u : TypeId} (hs : s.Sound L) (he : e.info.Typed s t) (hu : s.Known u) :
    Keeps L s (expectExpr e u) (fun _ s' => s'.Fits e.info u) L.Allows := by
  unfold expectExpr
  rw [show e.type? = some t from he.type]
  exact (keeps_expectType hs he.settled.1 hu).mono (fun _ _ _ _ h => ⟨t, he.type, h⟩) fun _ h => h

theorem keeps_expectBlock {b : Block Expr} {t u : TypeId} (hs : s.Sound L) (hb : b.info.Typed s t) (hu : s.Known u) :
    Keeps L s (expectBlock b u) (fun _ s' => s'.Fits b.info u) L.Allows := by
  unfold expectBlock
  rw [hb.type]
  exact (keeps_expectType hs hb.settled.1 hu).mono (fun _ _ _ _ h => ⟨t, hb.type, h⟩) fun _ h => h

/-- Arguments are compared with as many parameters. -/
private theorem keeps_expectAll {args : List Expr} {params : List TypeId} (hs : s.Sound L)
    (hargs : ∀ e ∈ args, ∃ t, e.info.Typed s t) (hparams : ∀ p ∈ params, s.Known p)
    (hlen : params.length = args.length) :
    Keeps L s (expectAll args params) (fun _ s' => List.Forall₂ (fun e p => s'.Fits (Expr.info e) p) args params)
      L.Allows := by
  induction args generalizing params s with
  | nil =>
    obtain rfl := List.length_eq_zero_iff.mp hlen
    exact keeps_pure hs .nil
  | cons e args ih =>
    match params with
    | [] => cases hlen
    | p :: params =>
      rw [expectAll]
      obtain ⟨t, ht⟩ := hargs e (by simp)
      refine (keeps_expectExpr hs ht (hparams p (by simp))).bind ?_
      intro _ s₁ hs₁ hlearns hfits
      refine (ih hs₁ ?_ ?_ (by simpa using hlen)).mono ?_ fun _ h => h
      · intro e' he'
        obtain ⟨t', ht'⟩ := hargs e' (by simp [he'])
        exact ⟨t', ht'.grow hlearns.toGrowsTo⟩
      · exact fun q hq => hlearns.toGrowsTo.known (hparams q (by simp [hq]))
      · exact fun _ s₂ _ hlearns' hall => .cons (hlearns'.toGrowsTo.fits hfits) hall

/-- What a rule says about a node is settled. -/
theorem Keeps.settled {rule : Action Info} {Q : TypeId → Store → Prop}
    (h : Keeps L s rule (fun i s' => ∃ t, i.Proper s' t ∧ Q t s') R) :
    Keeps L s (rule >>= settle) (fun i s' => ∃ t, i.Typed s' t ∧ Q t s') R := by
  refine h.bind ?_
  rintro i s' hs' - ⟨t, hi, hQ⟩
  obtain ⟨e, hget, -⟩ := hi.settled.1.get
  have hreference : s'.types.isReference t = .ok e.inner?.isSome := by simp [Types.isReference, hget]
  unfold settle
  refine keeps_typeOf hi.type (keeps_fromTypes hreference (keeps_pure hs' ⟨t, ?_, hQ⟩))
  exact ⟨hi.type, hi.settled, hreference, hi.value⟩

/-! ### Names, members and calls -/

/-- The type of a declared variable: that of a function is resolved on demand. -/
private theorem keeps_variable {v : Variable} (hs : s.Sound L) (hidle : s.Idle) (hv : s.Declares L v) :
    Keeps L s (resolveVariable v) (fun _ s' => ∃ t, (s'.typeOf v).value? = some t ∧ s'.Settled t)
      fun d => L.Allows d ∧ v.kind.isFunction = true := by
  unfold Store.Declares at hv
  refine keeps_get ?_
  cases hkind : v.kind with
  | function declared =>
    simp only [hkind] at hv
    obtain ⟨hprototype, hlisted, hsome⟩ := hv
    -- once the type of the function is resolved, its variable has it
    have htyped : ∀ s' : Store, s'.Sound L → s.Learns s' → ∀ sig, (s'.function v.span).signature = some sig →
        ∃ t, (s'.typeOf v).value? = some t ∧ s'.Settled t := by
      intro s' hs' hlearns sig hsig
      obtain ⟨h, hh⟩ := Option.isSome_iff_exists.mp hsome
      obtain ⟨h', hh', -⟩ := (hlearns.functions v.span).variableType h hh
      obtain ⟨params, returns, he, -⟩ := hs'.functions.signature v.span sig hsig
      refine ⟨sig, ?_, Store.settled_of_entry he rfl⟩
      rcases hs'.functions.variableType v.span h' hh' with ⟨-, hnone⟩ | ⟨sig', rfl, hsig'⟩
      · rw [hsig] at hnone
        cases hnone
      · rw [hsig] at hsig'
        cases hsig'
        simp [Store.typeOf, hkind, VariableKind.isFunction, hh', Holder.value?]
    cases hempty : (s.typeOf v).isEmpty with
    | true =>
      have hsignature := keeps_signature hs hidle hs.frames.module_lt hprototype hlisted hsome
      refine (hsignature.mono (fun _ _ _ _ h => h) fun d hd => ⟨hd, rfl⟩).bind ?_
      intro sig s' hs' hlearns hsig
      exact keeps_pure hs' (htyped s' hs' hlearns sig hsig)
    | false =>
      refine keeps_pure hs ?_
      obtain ⟨h, hh⟩ := Option.isSome_iff_exists.mp hsome
      rcases hs.functions.variableType v.span h hh with ⟨rfl, -⟩ | ⟨sig, rfl, hsig⟩
      · simp [Store.typeOf, hkind, VariableKind.isFunction, hh, Holder.isEmpty] at hempty
      · exact htyped s hs (.refl s) sig hsig
  | bound =>
    simp only [hkind] at hv
    refine keeps_pure hs ?_
    simpa [Store.typeOf, hkind, VariableKind.isFunction] using hv
  | argument =>
    simp only [hkind] at hv
    refine keeps_pure hs ?_
    simpa [Store.typeOf, hkind, VariableKind.isFunction] using hv

/-- An identifier means the variable that is looked up; it is refused only if there is none, or with its function. -/
theorem keeps_identifier {fr : FrameId} {info : Info} {name : String} {r : Option Variable} (hs : s.Sound L)
    (hidle : s.Idle) (hfr : fr < s.frames.size) (hinfo : info.value = none) (hr : s.frames.lookup fr name = .ok r) :
    Keeps L s (identifierRule fr info name)
      (fun p s' => r = some p.1 ∧ ∃ t, (s'.typeOf p.1).value? = some t ∧ p.2.Proper s' t)
      fun d => (r = none ∧ d = ⟨info.span, .unknownSymbol name⟩) ∨
        ∃ v, r = some v ∧ L.Allows d ∧ v.kind.isFunction = true := by
  obtain ⟨r', hr', hdeclares⟩ := hs.frames.lookup hfr name
  rw [hr] at hr'
  cases hr'
  unfold identifierRule
  refine keeps_get (keeps_lift hr ?_)
  cases r with
  | none => exact keeps_refuse hs (.inl ⟨rfl, rfl⟩)
  | some v =>
    refine ((keeps_variable hs hidle (hdeclares v rfl)).mono (fun _ _ _ _ h => h) fun d hd => .inr ⟨v, rfl, hd⟩).bind ?_
    rintro _ s' hs' - ⟨t, ht, hsettled⟩
    have hget : (s'.typeOf v).get = .ok t := by simp [Holder.get, ht]
    exact keeps_get (keeps_lift hget (keeps_pure hs' ⟨rfl, t, ht, .resolve hinfo hsettled⟩))

private theorem keeps_fieldsOf {f : String × List (String × TypeId) → Action β} {id : TypeId} {decl : StructDecl}
    {fields : List (String × TypeId)} (he : s.typeAt? id = some (.struct decl (.resolved fields)))
    (h : Keeps L s (f (decl.name, fields)) P R) : Keeps L s (fieldsOf id >>= f) P R := by
  unfold fieldsOf
  simp only [bind_assoc]
  exact keeps_fromTypes (Store.get_of_entry he) h

/-- A struct that is used by value has its fields afterwards. -/
private theorem keeps_struct {use : Span} {id : TypeId} {decl : StructDecl} {state : StructState} (hs : s.Sound L)
    (hidle : s.Idle) (hid : s.Known id) (he : s.typeAt? id = some (.struct decl state)) :
    Keeps L s (complete use id)
      (fun _ s' => s'.Settled id ∧ ∃ fields, s'.typeAt? id = some (.struct decl (.resolved fields))) L.Allows := by
  refine (keeps_complete hs hidle hid).mono ?_ fun _ h => h
  rintro _ s' - hlearns ⟨-, hsettled⟩
  obtain ⟨state', he'⟩ := hlearns.toGrowsTo.struct he
  obtain ⟨fields, rfl⟩ := hsettled.2 decl state' he'
  exact ⟨hsettled, fields, he'⟩

private theorem getElem_of_findIdx {fields : List (String × TypeId)} {name : String} {index : Nat}
    (h : fields.findIdx? (·.1 = name) = some index) : ∃ t, fields[index]? = some (name, t) := by
  obtain ⟨hlt, hname, -⟩ := List.findIdx?_eq_some_iff_getElem.mp h
  refine ⟨fields[index].2, ?_⟩
  rw [List.getElem?_eq_getElem hlt, ← of_decide_eq_true hname]

/-- A member access gives a field of a resolved struct. -/
theorem keeps_member {info : Info} {base : Expr} {name : String} {nameSpan : Span} {u : TypeId} (hs : s.Sound L)
    (hidle : s.Idle) (hinfo : info.value = none) (hbase : base.info.Typed s u) :
    Keeps L s (memberRule info base name nameSpan)
      (fun p s' => ∃ w decl fields t, s'.Loads u w ∧ s'.typeAt? w = some (.struct decl (.resolved fields)) ∧
        fields.findIdx? (·.1 = name) = some p.1 ∧ fields[p.1]? = some (name, t) ∧ p.2.Proper s' t) L.Allows := by
  obtain ⟨w, hload, hw⟩ := loads_known hs hbase.settled.1
  obtain ⟨e, hget, he⟩ := hw.get
  unfold memberRule
  refine keeps_typeOf hbase.type (keeps_load hload (keeps_fromTypes hget ?_))
  cases e with
  | struct decl state =>
    refine (keeps_struct hs hidle hw he).bind ?_
    rintro _ s₁ hs₁ hlearns ⟨hsettled, fields, hfields⟩
    refine keeps_fieldsOf hfields ?_
    dsimp only
    cases hindex : fields.findIdx? (·.1 = name) with
    | none => exact keeps_reject hs₁ (by simp [Cause.kind])
    | some index =>
      obtain ⟨t, ht⟩ := getElem_of_findIdx hindex
      have hfield : s₁.Settled t := (hs₁.types.resolved w decl fields hfields).1 _ (List.mem_of_getElem? ht)
      refine keeps_lift (itemAt_eq_ok_iff.mpr ht) (keeps_pure hs₁ ?_)
      exact ⟨w, decl, fields, t, hlearns.toGrowsTo.loads hload, hfields, hindex, ht, .resolve hinfo hfield⟩
  | _ => exact keeps_textOf hs hbase.settled.1 fun _ => keeps_reject hs (by simp [Cause.kind])

/-- A call has one argument for each parameter. -/
theorem keeps_call {info : Info} {callee : Expr} {args : List Expr} {f : TypeId} (hs : s.Sound L)
    (hinfo : info.value = none) (hcallee : callee.info.Typed s f) (hargs : ∀ e ∈ args, ∃ t, e.info.Typed s t) :
    Keeps L s (callRule info callee args)
      (fun i s' => ∃ params returns, s'.typeAt? f = some (.function params returns) ∧
        List.Forall₂ (fun e p => s'.Fits (Expr.info e) p) args params ∧ i.Proper s' returns) L.Allows := by
  obtain ⟨e, hget, he⟩ := hcallee.settled.1.get
  unfold callRule
  refine keeps_typeOf hcallee.type (keeps_fromTypes hget ?_)
  cases e with
  | function params returns =>
    obtain ⟨hparams, -, hreturns⟩ := hs.types.functionTypes f params returns he
    dsimp only [TypeEntry.function?]
    by_cases hlen : params.length = args.length
    · rw [if_neg (by simpa using hlen)]
      refine (keeps_expectAll hs hargs (fun p hp => (hparams p hp).2.1) hlen).bind ?_
      intro _ s₁ hs₁ hlearns hfits
      exact keeps_pure hs₁ ⟨params, returns, hlearns.toGrowsTo.same he rfl, hfits,
        .resolve hinfo (hlearns.toGrowsTo.settled hreturns)⟩
    · rw [if_pos hlen]
      exact keeps_rejectThen hs (by simp [Cause.kind])
  | _ => exact keeps_textOf hs hcallee.settled.1 fun _ => keeps_reject hs (by simp [Cause.kind])

/-! ### Operators -/

/-- A reference is taken to a location. -/
theorem keeps_address {info : Info} {operand : Expr} {u : TypeId} (hs : s.Sound L) (hinfo : info.value = none)
    (hlocation : ∃ b, operand.hasLocation = .ok b) (hu : operand.info.Typed s u) :
    Keeps L s (addressRule info operand)
      (fun i s' => operand.hasLocation = .ok true ∧ ∃ t, s'.typeAt? t = some (.reference u) ∧ i.Proper s' t)
      L.Allows := by
  obtain ⟨b, hb⟩ := hlocation
  unfold addressRule
  refine keeps_typeOf hu.type (keeps_lift hb ?_)
  cases b with
  | true =>
    refine (resolves_reference hs hu.settled.1).keeps.bind ?_
    intro t s₁ hs₁ hlearns ht
    exact keeps_pure hs₁ ⟨hb, t, ht, .resolve hinfo (Store.settled_of_entry ht rfl)⟩
  | false => exact keeps_rejectThen hs (by simp [Cause.kind])

/-- A type of which there are constants can be used. -/
private theorem settled_scalar {t : TypeId} (hs : s.Sound L) (ht : t = TypeId.bool ∨ TypeId.isNumeric t = true) :
    s.Settled t := by
  have hvalue : ∃ v : Value, v.type = t := by
    simp only [TypeId.isNumeric, TypeId.isInteger, TypeId.isFloat, Bool.or_eq_true, decide_eq_true_eq] at ht
    rcases ht with rfl | (rfl | rfl) | rfl | rfl
    · exact ⟨.bool true, rfl⟩
    · exact ⟨.i32 0, rfl⟩
    · exact ⟨.i64 0, rfl⟩
    · exact ⟨.f32 0, rfl⟩
    · exact ⟨.f64 0, rfl⟩
  obtain ⟨v, rfl⟩ := hvalue
  obtain ⟨name, he⟩ := hs.types.value v
  exact Store.settled_of_entry he rfl

private theorem isNumeric_of_isInteger {t : TypeId} (h : TypeId.isInteger t = true) : TypeId.isNumeric t = true := by
  simp [TypeId.isNumeric, h]

private theorem isNumeric_of_isFloat {t : TypeId} (h : TypeId.isFloat t = true) : TypeId.isNumeric t = true := by
  simp [TypeId.isNumeric, h]

theorem isLogical_scalar {t : TypeId} (h : isLogical t = true) : t = TypeId.bool ∨ TypeId.isNumeric t = true := by
  simp only [isLogical, Bool.or_eq_true, decide_eq_true_eq] at h
  exact h.imp id isNumeric_of_isInteger

/-- A negation has the type of its operand. -/
theorem keeps_negation {info : Info} {op : UnaryOp} {operand : Expr} {expected : String} {takes : TypeId → Bool}
    {u : TypeId} (hs : s.Sound L) (hinfo : info.value = none) (hu : operand.info.Typed s u)
    (htakes : ∀ t, takes t = true → t = TypeId.bool ∨ TypeId.isNumeric t = true) :
    Keeps L s (negationRule info op operand expected takes) (fun i s' => ∃ t, s'.Loads u t ∧ i.Proper s' t)
      L.Allows := by
  obtain ⟨t, hload, ht⟩ := loads_known hs hu.settled.1
  unfold negationRule
  refine keeps_typeOf hu.type (keeps_load hload ?_)
  cases htake : takes t with
  | true =>
    refine keeps_pure hs ⟨t, hload, .operation hinfo (settled_scalar hs (htakes t htake)) ?_⟩
    intro w hw
    obtain ⟨v, hv, hw⟩ := Option.bind_eq_some_iff.mp hw
    rw [Value.unary?_type hw, hu.value v hv, loads_value hs (hu.value v hv) hload]
  | false => exact keeps_textOf hs hu.settled.1 fun _ => keeps_rejectThen hs (by simp [Cause.kind])

private theorem operandTypes_scalar {op : BinaryOp} {t : TypeId} (h : (operandTypes op).2 t = true) :
    t = TypeId.bool ∨ TypeId.isNumeric t = true := by
  cases op
  case and | or | xor => exact isLogical_scalar h
  case eq | ne => simpa [operandTypes] using h
  case rem | shl | shr => exact .inr (isNumeric_of_isInteger h)
  all_goals exact .inr h

/-- The values of two operands of one type are combined. -/
private theorem keeps_foldOperands {f : Option Value → Action β} {op : BinaryOp} {lhs rhs : Info} {t u v : TypeId}
    (hs : s.Sound L) (hu : lhs.Typed s u) (hv : rhs.Typed s v) (hleft : s.Loads u t) (hright : s.Loads v t)
    (h : ∀ o : Option Value, (∀ w, o = some w → w.type = Value.resultType op t) → Keeps L s (f o) P R) :
    Keeps L s (foldOperands op lhs rhs >>= f) P R := by
  unfold foldOperands
  cases hl : lhs.value with
  | none => exact h none (by simp)
  | some l =>
    cases hr : rhs.value with
    | none => exact h none (by simp)
    | some r =>
      have hlt : l.type = t := (hu.value l hl).trans (loads_value hs (hu.value l hl) hleft).symm
      have hrt : r.type = t := (hv.value r hr).trans (loads_value hs (hv.value r hr) hright).symm
      obtain ⟨o, ho, htype⟩ := Value.binary?_type op (hlt.trans hrt.symm)
      exact keeps_lift ho (h o (by rwa [hlt] at htype))

/-- The operands of an operator have one type. -/
theorem keeps_binary {info : Info} {op : BinaryOp} {lhs rhs : Expr} {u v : TypeId} (hs : s.Sound L)
    (hinfo : info.value = none) (hu : lhs.info.Typed s u) (hv : rhs.info.Typed s v) :
    Keeps L s (binaryRule info op lhs rhs)
      (fun i s' => ∃ t, s'.Loads u t ∧ s'.Loads v t ∧ (operandTypes op).2 t = true ∧
        i.Proper s' (if op.isComparison then TypeId.bool else t)) L.Allows := by
  obtain ⟨t, hleft, ht⟩ := loads_known hs hu.settled.1
  obtain ⟨t', hright, ht'⟩ := loads_known hs hv.settled.1
  unfold binaryRule
  refine keeps_typeOf hu.type (keeps_load hleft (keeps_typeOf hv.type (keeps_load hright ?_)))
  dsimp only
  cases htake : (operandTypes op).2 t with
  | false => exact keeps_textOf hs ht fun _ => keeps_rejectThen hs (by simp [Cause.kind])
  | true =>
    by_cases heq : t = t'
    · subst heq
      simp only [Bool.not_true, Bool.false_eq_true, if_false, ne_eq, not_true_eq_false]
      refine keeps_foldOperands hs hu hv hleft hright fun o ho => keeps_pure hs ?_
      refine ⟨t, hleft, hright, htake, .operation hinfo ?_ ho⟩
      split
      · exact settled_scalar hs (.inl rfl)
      · exact settled_scalar hs (operandTypes_scalar htake)
    · simp only [Bool.not_true, Bool.false_eq_true, if_false, ne_eq, heq, not_false_eq_true, if_true]
      exact keeps_textOf hs ht fun _ => keeps_textOf hs ht' fun _ => keeps_rejectThen hs (by simp [Cause.kind])

private theorem keeps_expectMutable {target : Expr} (hs : s.Sound L) (hplace : ∃ p, target.place? = .ok p) :
    Keeps L s (expectMutable target) (fun _ _ => True) L.Allows := by
  obtain ⟨place, hplace⟩ := hplace
  unfold expectMutable
  refine keeps_lift hplace ?_
  cases place with
  | none => exact keeps_pure hs trivial
  | some place =>
    dsimp only
    split
    · exact keeps_reject hs (by simp [Cause.kind])
    · exact keeps_pure hs trivial

/-- An assignment goes to a location, through it if it is a reference. -/
theorem keeps_assignment {info : Info} {target source : Expr} {u v : TypeId} (hs : s.Sound L)
    (hinfo : info.value = none) (hplace : ∃ p, target.place? = .ok p) (hlocation : ∃ b, target.hasLocation = .ok b)
    (hu : target.info.Typed s u) (hv : source.info.Typed s v) :
    Keeps L s (assignmentRule info target source)
      (fun i s' => target.hasLocation = .ok true ∧ ∃ w, s'.Loads u w ∧ s'.Fits source.info w ∧
        i.Proper s' TypeId.void) L.Allows := by
  obtain ⟨b, hb⟩ := hlocation
  unfold assignmentRule
  refine (keeps_expectMutable hs hplace).bind fun _ s₁ hs₁ hlearns _ => keeps_lift hb ?_
  have hg := hlearns.toGrowsTo
  cases b with
  | false => exact keeps_rejectThen hs₁ (by simp [Cause.kind])
  | true =>
    obtain ⟨w, hload, hw⟩ := loads_known hs₁ (hg.settled hu.settled).1
    refine keeps_typeOf hu.type (keeps_load hload ?_)
    refine (keeps_expectExpr hs₁ (hv.grow hg) hw).bind fun _ s₂ hs₂ hlearns₂ hfits => keeps_pure hs₂ ?_
    exact ⟨hb, w, hlearns₂.toGrowsTo.loads hload, hfits, .resolve hinfo (Store.settled_of_entry hs₂.types.void rfl)⟩

/-! ### Builtins -/

theorem keeps_findBuiltin {info : Info} {name : String} (hs : s.Sound L) (hname : L.isOtherName info.span) :
    Keeps L s (findBuiltin info name) (fun b _ => Builtin.ofName? name = some b) L.Allows := by
  unfold findBuiltin
  cases h : Builtin.ofName? name with
  | some b => exact keeps_pure hs rfl
  | none => exact keeps_refuse hs (.unknownSymbol hname)

private theorem family_scalar {b : Builtin} {t : TypeId} (h : b.family.takes t = true) :
    TypeId.isNumeric t = true ∧ TypeId.isNumeric (b.family.result t) = true := by
  cases b
  case sqrt | abs | min | max => exact ⟨isNumeric_of_isFloat h, isNumeric_of_isFloat h⟩
  case toI32 | toI64 | toF32 | toF64 => exact ⟨h, rfl⟩
  all_goals exact ⟨isNumeric_of_isInteger h, isNumeric_of_isInteger h⟩

/-- The second argument of a builtin, if there is one, has the type of the first. -/
private theorem keeps_matchSecond {first : Expr} {rest : List Expr} {t : TypeId} (hs : s.Sound L) (ht : s.Known t)
    (hrest : ∀ e ∈ rest, ∃ u, e.info.Typed s u) (hlen : (first :: rest).length ≤ 2) :
    Keeps L s (matchSecond t (first :: rest))
      (fun _ s' => ∀ e ∈ rest, ∃ u, e.type? = some u ∧ s'.Loads u t) L.Allows := by
  match rest with
  | [] => exact keeps_pure hs (by simp)
  | [second] =>
    obtain ⟨u, hu⟩ := hrest second (by simp)
    obtain ⟨t', hload, ht'⟩ := loads_known hs hu.settled.1
    unfold matchSecond
    refine keeps_typeOf hu.type (keeps_load hload ?_)
    by_cases heq : t' = t
    · subst heq
      rw [if_neg (by simp)]
      exact keeps_pure hs (by simpa using ⟨u, hu.type, hload⟩)
    · rw [if_pos heq]
      exact keeps_textOf hs ht fun _ => keeps_textOf hs ht' fun _ => keeps_reject hs (by simp [Cause.kind])
  | _ :: _ :: _ => simp at hlen

private theorem keeps_expectFeature {options : Options} {info : Info} {b : Builtin} {t : TypeId} (hs : s.Sound L) :
    Keeps L s (expectFeature options info b t) (fun _ _ => True) L.Allows := by
  unfold expectFeature
  split
  · split
    · exact keeps_reject hs (by simp [Cause.kind])
    · exact keeps_pure hs trivial
  · exact keeps_pure hs trivial

/-- The values of expressions, one for each. -/
theorem mem_valuesOf {args : List Expr} {values : List Value} (h : valuesOf args = some values) :
    values.length = args.length ∧ ∀ v ∈ values, ∃ e ∈ args, e.info.value = some v := by
  induction args generalizing values with
  | nil =>
    cases h
    exact ⟨rfl, by simp⟩
  | cons e args ih =>
    simp only [valuesOf, List.mapM_cons, Option.bind_eq_bind, Option.bind_eq_some_iff, Option.pure_def,
      Option.some.injEq] at h
    obtain ⟨v, hv, rest, hrest, rfl⟩ := h
    obtain ⟨hlen, hmem⟩ := ih hrest
    refine ⟨by simp [hlen], fun w hw => ?_⟩
    rcases List.mem_cons.mp hw with rfl | hw
    · exact ⟨e, by simp, hv⟩
    · obtain ⟨e', he', hw'⟩ := hmem w hw
      exact ⟨e', by simp [he'], hw'⟩

private theorem keeps_foldArguments {f : Option Value → Action β} {options : Options} {b : Builtin} {args : List Expr}
    {t : TypeId} (harity : args.length = b.family.arity)
    (hargs : ∀ e ∈ args, ∀ v, e.info.value = some v → v.type = t)
    (h : ∀ o : Option Value, (∀ w, o = some w → w.type = b.family.result t) → Keeps L s (f o) P R) :
    Keeps L s (foldArguments options b args >>= f) P R := by
  unfold foldArguments
  cases hvalues : valuesOf args with
  | none =>
    split
    · contradiction
    · exact h none (by simp)
  | some values =>
    obtain ⟨hlen, hmem⟩ := mem_valuesOf hvalues
    have htypes : ∀ v ∈ values, v.type = t := by
      intro v hv
      obtain ⟨e, he, hvalue⟩ := hmem v hv
      exact hargs e he v hvalue
    obtain ⟨o, ho, htype⟩ := Builtin.value?_type (hlen.trans harity) htypes
    cases options.constantFolding with
    | true => exact keeps_lift ho (h o htype)
    | false => exact h none (by simp)

/-- The arguments of a builtin have one type, which it takes. -/
theorem keeps_builtin {options : Options} {info : Info} {b : Builtin} {args : List Expr} (hs : s.Sound L)
    (hinfo : info.value = none) (hargs : ∀ e ∈ args, ∃ t, e.info.Typed s t) :
    Keeps L s (builtinRule options info b args)
      (fun i s' => args.length = b.family.arity ∧ ∃ u, (∀ e ∈ args, ∃ t, e.type? = some t ∧ s'.Loads t u) ∧
        b.family.takes u = true ∧ i.Proper s' (b.family.result u)) L.Allows := by
  unfold builtinRule
  dsimp only
  by_cases harity : args.length = b.family.arity
  · rw [if_neg (by simpa using harity)]
    match args with
    | [] => cases b <;> cases harity
    | first :: rest =>
      obtain ⟨t, ht⟩ := hargs first (by simp)
      obtain ⟨u, hload, hu⟩ := loads_known hs ht.settled.1
      dsimp only
      refine keeps_typeOf ht.type (keeps_load hload ?_)
      cases htakes : b.family.takes u with
      | false => exact keeps_textOf hs hu fun _ => keeps_rejectThen hs (by simp [Cause.kind])
      | true =>
        have hshort : (first :: rest).length ≤ 2 := by
          rw [harity]
          cases b <;> decide
        refine (keeps_matchSecond hs hu (fun e he => hargs e (by simp [he])) hshort).bind ?_
        intro _ s₁ hs₁ hlearns hsecond
        refine (keeps_expectFeature hs₁).bind fun _ s₂ hs₂ hlearns₂ _ => ?_
        have hg := hlearns.toGrowsTo.trans hlearns₂.toGrowsTo
        have hloads : ∀ e ∈ first :: rest, ∃ t, e.type? = some t ∧ s₂.Loads t u := by
          intro e he
          rcases List.mem_cons.mp he with rfl | he
          · exact ⟨t, ht.type, hg.loads hload⟩
          · obtain ⟨t', ht', hload'⟩ := hsecond e he
            exact ⟨t', ht', hlearns₂.toGrowsTo.loads hload'⟩
        refine keeps_foldArguments (t := u) harity ?_ fun o ho => keeps_pure hs₂ ?_
        · intro e he v hv
          obtain ⟨t', ht', hload'⟩ := hloads e he
          obtain ⟨t'', htyped⟩ := hargs e he
          have hsame : t'' = t' := Option.some.inj (htyped.type.symm.trans ht')
          subst hsame
          exact (htyped.value v hv).trans (loads_value hs₂ (htyped.value v hv) hload').symm
        · exact ⟨harity, u, hloads, htakes, .operation hinfo (settled_scalar hs₂ (.inr (family_scalar htakes).2)) ho⟩
  · rw [if_pos harity]
    exact keeps_rejectThen hs (by simp [Cause.kind])

/-! ### Struct literals -/

/-- The struct of a literal is resolved. -/
theorem keeps_literalStruct {fr : FrameId} {info : Info} {name : String} (hs : s.Sound L) (hidle : s.Idle)
    (hfr : fr < s.frames.size) (hname : L.isOtherName info.span) :
    Keeps L s (literalStruct fr info name)
      (fun r s' => s'.Settled r.1 ∧ ∃ decl, s'.typeAt? r.1 = some (.struct decl (.resolved r.2.2))) L.Allows := by
  obtain ⟨r, hr, hknown⟩ := hs.frames.lookupType hfr name
  unfold literalStruct
  refine keeps_get (keeps_lift hr ?_)
  cases r with
  | none => exact keeps_refuse hs (.unknownSymbol hname)
  | some id =>
    obtain ⟨e, hget, he⟩ := (hknown id rfl).get
    refine keeps_fromTypes hget ?_
    cases e with
    | struct decl state =>
      refine (keeps_struct hs hidle (hknown id rfl) he).bind ?_
      rintro _ s₁ hs₁ - ⟨hsettled, fields, hfields⟩
      exact keeps_fieldsOf hfields (keeps_pure hs₁ ⟨hsettled, decl, hfields⟩)
    | _ => exact keeps_reject hs (by simp [Cause.kind])

/-- A field that is given is declared, and was not given before. -/
theorem keeps_field {owner : String} {declared : List (String × TypeId)} {seen : List String} {name : String}
    {span : Span} (hs : s.Sound L) :
    Keeps L s (fieldRule owner declared seen name span) (fun t _ => (name, t) ∈ declared ∧ name ∉ seen) L.Allows := by
  unfold fieldRule
  cases hindex : declared.findIdx? (·.1 = name) with
  | none => exact keeps_reject hs (by simp [Cause.kind])
  | some index =>
    obtain ⟨t, ht⟩ := getElem_of_findIdx hindex
    dsimp only
    by_cases hseen : name ∈ seen
    · rw [if_pos (by simpa using hseen)]
      exact keeps_rejectThen hs (by simp [Cause.kind])
    · rw [if_neg (by simpa using hseen)]
      exact keeps_lift (itemAt_eq_ok_iff.mpr ht) (keeps_pure hs ⟨List.mem_of_getElem? ht, hseen⟩)

/-- Every declared field is given. -/
theorem keeps_literal {info : Info} {type : TypeId} {owner : String} {declared : List (String × TypeId)}
    {inits : List (FieldInit Expr)} (hs : s.Sound L) (hinfo : info.value = none) (htype : s.Settled type) :
    Keeps L s (literalRule info type owner declared inits)
      (fun i s' => (∀ d ∈ declared, d.1 ∈ inits.map (·.name)) ∧ i.Proper s' type) L.Allows := by
  unfold literalRule
  cases hfind : declared.find? (fun d => !inits.any (·.name = d.1)) with
  | some d => exact keeps_reject hs (by simp [Cause.kind])
  | none =>
    refine keeps_pure hs ⟨fun d hd => ?_, .resolve hinfo htype⟩
    simpa using List.find?_eq_none.mp hfind d hd

/-! ### Statements and control flow -/

private theorem assignable_self (t : TypeId) : s.Assignable t t := by
  unfold Store.Assignable Types.assignable
  rw [if_pos (by simp)]

/-- The variable of a binding gets a type that its initial value fits. -/
theorem keeps_let {fr : FrameId} {v : Variable} {declared : Option TypeExpr} {init : Expr} {u : TypeId} (hs : s.Sound L)
    (hidle : s.Idle) (hfr : fr < s.frames.size) (hdeclared : L.Lists (TypeExpr.optionMentions declared))
    (hu : init.info.Typed s u) :
    Keeps L s (letRule fr (.owned v) declared init)
      (fun v' s' => ∃ holder t, v' = { v with type := holder } ∧ holder.value? = some t ∧ s'.Settled t ∧
        s'.Fits init.info t) L.Allows := by
  unfold letRule
  refine keeps_lift rfl ?_
  cases declared with
  | some declared =>
    refine (resolves_type hs hidle hfr hdeclared).keeps.bind fun t s₁ hs₁ hlearns ht => ?_
    refine (keeps_expectExpr hs₁ (hu.grow hlearns.toGrowsTo) ht.1).bind fun _ s₂ hs₂ hlearns₂ hfits => ?_
    exact keeps_pure hs₂ ⟨.borrowed t, t, rfl, rfl, hlearns₂.toGrowsTo.settled ht, hfits⟩
  | none =>
    exact keeps_typeOf hu.type (keeps_pure hs ⟨.owned u, u, rfl, rfl, hu.settled, u, hu.type, assignable_self u⟩)

/-- A block has the type of its last expression. -/
theorem keeps_block {info : Info} {stmts : List Expr} {tail : Option Expr} (hs : s.Sound L) (hinfo : info.value = none)
    (htail : ∀ e ∈ tail, ∃ t, e.info.Typed s t) :
    Keeps L s (blockRule info stmts tail)
      (fun i s' => ∃ t, (∀ e ∈ tail, e.type? = some t) ∧ (tail = none → t = TypeId.void ∨ t = TypeId.never) ∧
        i.Proper s' t) L.Allows := by
  unfold blockRule
  cases tail with
  | some e =>
    obtain ⟨t, ht⟩ := htail e rfl
    refine keeps_typeOf ht.type (keeps_pure hs ⟨t, ?_, by simp, .resolve hinfo ht.settled⟩)
    rintro _ ⟨⟩
    exact ht.type
  | none =>
    refine keeps_pure hs ⟨_, by simp, fun _ => ?_, .resolve hinfo ?_⟩
    · split
      · exact .inr rfl
      · exact .inl rfl
    · split
      · exact Store.settled_of_entry hs.types.never rfl
      · exact Store.settled_of_entry hs.types.void rfl

/-- What does not fit is refused. -/
private theorem keeps_mismatch {f : Unit → Action β} {e : Expr} {t u : TypeId} (hs : s.Sound L) (ht : e.info.Typed s t)
    (hu : s.Known u) (hfalse : s.types.assignable t u = .ok false) : Keeps L s (expectExpr e u >>= f) P L.Allows := by
  unfold expectExpr expectType
  rw [show e.type? = some t from ht.type]
  simp only [bind_assoc]
  refine keeps_lift (unwrap_some t) (keeps_fromTypes hfalse ?_)
  simp only [Bool.not_false, if_true, bind_assoc]
  exact keeps_textOf hs hu fun _ => keeps_textOf hs ht.settled.1 fun _ => keeps_rejectThen hs (by simp [Cause.kind])

/-- Both branches of a conditional fit its type. -/
theorem keeps_if {info : Info} {thenBlock : Block Expr} {other : Option Expr} {t : TypeId} (hs : s.Sound L)
    (hinfo : info.value = none) (hthen : thenBlock.info.Typed s t) (hother : ∀ e ∈ other, ∃ u, e.info.Typed s u) :
    Keeps L s (ifRule info thenBlock other)
      (fun i s' => ∃ w, s'.Fits thenBlock.info w ∧ (∀ e ∈ other, s'.Fits e.info w) ∧
        (other = none → w = TypeId.void) ∧ i.Proper s' w) L.Allows := by
  unfold ifRule
  cases other with
  | none =>
    refine (keeps_expectBlock hs hthen (Store.known_of_entry hs.types.void rfl)).bind fun _ s₁ hs₁ hlearns hfits => ?_
    exact keeps_pure hs₁ ⟨_, hfits, by simp, fun _ => rfl, .resolve hinfo (Store.settled_of_entry hs₁.types.void rfl)⟩
  | some e =>
    obtain ⟨u, hu⟩ := hother e rfl
    obtain ⟨b, hb⟩ := assignable_cases hu.settled.1 t
    obtain ⟨b', hb'⟩ := assignable_cases hthen.settled.1 u
    refine keeps_typeOf hthen.type (keeps_typeOf hu.type (keeps_fromTypes hb ?_))
    cases b with
    | true =>
      refine keeps_pure hs ⟨t, ⟨t, hthen.type, assignable_self t⟩, ?_, by simp, .resolve hinfo hthen.settled⟩
      rintro _ ⟨⟩
      exact ⟨u, hu.type, hb⟩
    | false =>
      refine keeps_fromTypes hb' ?_
      cases b' with
      | true =>
        refine keeps_pure hs ⟨u, ⟨t, hthen.type, hb'⟩, ?_, by simp, .resolve hinfo hu.settled⟩
        rintro _ ⟨⟩
        exact ⟨u, hu.type, assignable_self u⟩
      | false => exact keeps_mismatch hs hu hthen.settled.1 hb

theorem keeps_jump {info : Info} {keyword : String} {inLoop : Bool} (hs : s.Sound L) (hinfo : info.value = none) :
    Keeps L s (jumpRule info keyword inLoop) (fun i s' => i.Proper s' TypeId.never) L.Allows := by
  unfold jumpRule
  cases inLoop with
  | true => exact keeps_pure hs (.resolve hinfo (Store.settled_of_entry hs.types.never rfl))
  | false => exact keeps_rejectThen hs (by simp [Cause.kind])

private theorem keeps_expectResult {info : Info} {r : TypeId} {result : Option Expr} (hs : s.Sound L) (hr : s.Known r)
    (hresult : ∀ e ∈ result, ∃ t, e.info.Typed s t) :
    Keeps L s (expectResult info r result)
      (fun _ s' => (∀ e ∈ result, s'.Fits e.info r) ∧ (result = none → r = TypeId.void)) L.Allows := by
  unfold expectResult
  cases result with
  | none =>
    by_cases hvoid : r = TypeId.void
    · rw [if_neg (by simpa using hvoid)]
      exact keeps_pure hs ⟨by simp, fun _ => hvoid⟩
    · rw [if_pos hvoid]
      have hknown := Store.known_of_entry hs.types.void rfl
      exact keeps_textOf hs hr fun _ => keeps_textOf hs hknown fun _ => keeps_reject hs (by simp [Cause.kind])
  | some e =>
    obtain ⟨t, ht⟩ := hresult e rfl
    refine (keeps_expectExpr hs ht hr).mono (fun _ s₁ _ _ hfits => ⟨?_, by simp⟩) fun _ h => h
    rintro _ ⟨⟩
    exact hfits

/-- What is returned fits the result of the function around. -/
theorem keeps_return {info : Info} {returns : Option TypeId} {result : Option Expr} (hs : s.Sound L)
    (hinfo : info.value = none) (hreturns : ∀ r ∈ returns, s.Known r)
    (hresult : returns.isSome = true → ∀ e ∈ result, ∃ t, e.info.Typed s t) :
    Keeps L s (returnRule info returns result)
      (fun i s' => ∃ r, returns = some r ∧ (∀ e ∈ result, s'.Fits e.info r) ∧ (result = none → r = TypeId.void) ∧
        i.Proper s' TypeId.never) L.Allows := by
  unfold returnRule
  cases returns with
  | none => exact keeps_reject hs (by simp [Cause.kind])
  | some r =>
    refine (keeps_expectResult hs (hreturns r rfl) (hresult rfl)).bind ?_
    rintro _ s₁ hs₁ - ⟨hfits, hvoid⟩
    exact keeps_pure hs₁ ⟨r, rfl, hfits, hvoid, .resolve hinfo (Store.settled_of_entry hs₁.types.never rfl)⟩

end Action

end RainCheck
