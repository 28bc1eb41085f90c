import RainCheck.Proofs.Folding

/-!
# Trees with more values

Computing builtins on constants adds values to a tree and changes nothing else.
* `Expr.FoldsTo` relates a tree to the same tree with more values.
* (rules) A rule that is applied to parts with more values ends alike, and says the same but for a
  value (`Action.Agree`).

Values are only combined if they are of one type.  Whether they are is not looked at here: a walk that combines others
raises a fault, and then nothing is said about it.
-/

namespace RainCheck

open Check RainCheck.Action

/-! ### The relation -/

/-- Options of which the second ones ask for the values of builtins in addition. -/
structure Options.FoldsTo (o o' : Options) : Prop where
  off : o.constantFolding = false
  on : o' = { o with constantFolding := true }

/-- What is known about a node, and the same with a value that may be known in addition. -/
structure Info.FoldsTo (i j : Info) : Prop where
  span : j.span = i.span
  type : j.type = i.type
  compileTime : j.compileTime = i.compileTime
  reference : j.reference = i.reference
  constant : i.constant = true → j.constant = true
  value : ∀ v, i.value = some v → j.value = some v
  computed : j.value.isSome = true → i.compileTime = true

/-- One field with two values, of which something holds. -/
inductive FieldInit.Rel {ε : Type} (R : ε → ε → Prop) : FieldInit ε → FieldInit ε → Prop where
  | mk {name : String} {span : Span} {value value' : ε} (h : R value value') : Rel R
      ⟨name, span, value⟩ ⟨name, span, value'⟩

/-- A tree, and the same tree with more values on its nodes. -/
inductive Expr.FoldsTo : Expr → Expr → Prop where
  | integer {i j : Info} {n : Int32} (hi : i.FoldsTo j) : FoldsTo (.integer i n) (.integer j n)
  | float {i j : Info} {x : Float} (hi : i.FoldsTo j) : FoldsTo (.float i x) (.float j x)
  | boolean {i j : Info} {b : Bool} (hi : i.FoldsTo j) : FoldsTo (.boolean i b) (.boolean j b)
  | identifier {i j : Info} {name : String} {v : Option Variable} (hi : i.FoldsTo j) :
      FoldsTo (.identifier i name v) (.identifier j name v)
  | member {i j : Info} {base base' : Expr} {name : String} {span : Span} {index : Nat} (hi : i.FoldsTo j)
      (hbase : FoldsTo base base') : FoldsTo (.member i base name span index) (.member j base' name span index)
  | call {i j : Info} {callee callee' : Expr} {args args' : List Expr} (hi : i.FoldsTo j)
      (hcallee : FoldsTo callee callee') (hargs : List.Forall₂ FoldsTo args args') :
      FoldsTo (.call i callee args) (.call j callee' args')
  | builtinCall {i j : Info} {name : String} {args args' : List Expr} (hi : i.FoldsTo j)
      (hargs : List.Forall₂ FoldsTo args args') : FoldsTo (.builtinCall i name args) (.builtinCall j name args')
  | unary {i j : Info} {op : UnaryOp} {operand operand' : Expr} (hi : i.FoldsTo j)
      (hoperand : FoldsTo operand operand') :
      FoldsTo (.unary i op operand) (.unary j op operand')
  | binary {i j : Info} {op : BinaryOp} {lhs lhs' rhs rhs' : Expr} (hi : i.FoldsTo j) (hlhs : FoldsTo lhs lhs')
      (hrhs : FoldsTo rhs rhs') : FoldsTo (.binary i op lhs rhs) (.binary j op lhs' rhs')
  | assignment {i j : Info} {target target' source source' : Expr} (hi : i.FoldsTo j) (htarget : FoldsTo target target')
      (hsource : FoldsTo source source') : FoldsTo (.assignment i target source) (.assignment j target' source')
  | structLiteral {i j : Info} {name : String} {inits inits' : List (FieldInit Expr)} (hi : i.FoldsTo j)
      (hinits : List.Forall₂ (FieldInit.Rel FoldsTo) inits inits') :
      FoldsTo (.structLiteral i name inits) (.structLiteral j name inits')
  | letBinding {i j : Info} {v : Holder Variable} {declared : Option TypeExpr} {init init' : Expr} (hi : i.FoldsTo j)
      (hinit : FoldsTo init init') : FoldsTo (.letBinding i v declared init) (.letBinding j v declared init')
  | block {i j : Info} {frame : Option FrameId} {stmts stmts' : List Expr} {tail tail' : Option Expr} (hi : i.FoldsTo j)
      (hstmts : List.Forall₂ FoldsTo stmts stmts') (htail : Option.Rel FoldsTo tail tail') :
      FoldsTo (.block ⟨i, frame, stmts, tail⟩) (.block ⟨j, frame, stmts', tail'⟩)
  | ifElse {i j : Info} {cond cond' : Expr} {thenBlock then' : Block Expr}
      {other other' : Option Expr} (hi : i.FoldsTo j)
      (hcond : FoldsTo cond cond') (hthen : FoldsTo (.block thenBlock) (.block then'))
      (hother : Option.Rel FoldsTo other other') : FoldsTo (.ifElse i cond thenBlock other)
        (.ifElse j cond' then' other')
  | whileLoop {i j : Info} {cond cond' : Expr} {body body' : Block Expr} (hi : i.FoldsTo j) (hcond : FoldsTo cond cond')
      (hbody : FoldsTo (.block body) (.block body')) : FoldsTo (.whileLoop i cond body) (.whileLoop j cond' body')
  | endlessLoop {i j : Info} {body body' : Block Expr} (hi : i.FoldsTo j)
      (hbody : FoldsTo (.block body) (.block body')) :
      FoldsTo (.endlessLoop i body) (.endlessLoop j body')
  | leaveLoop {i j : Info} (hi : i.FoldsTo j) : FoldsTo (.leaveLoop i) (.leaveLoop j)
  | nextRound {i j : Info} (hi : i.FoldsTo j) : FoldsTo (.nextRound i) (.nextRound j)
  | leaveFunction {i j : Info} {result result' : Option Expr} (hi : i.FoldsTo j)
      (hresult : Option.Rel FoldsTo result result') : FoldsTo (.leaveFunction i result) (.leaveFunction j result')
  | function {i j : Info} {header : Header} {body body' : Block Expr} (hi : i.FoldsTo j)
      (hbody : FoldsTo (.block body) (.block body')) : FoldsTo (.function i header body) (.function j header body')

/-- A note whether the type is a reference makes no difference. -/
private theorem Info.FoldsTo.noted {i j : Info} (h : i.FoldsTo j) (b : Bool) :
    Info.FoldsTo { i with reference := b } { j with reference := b } :=
  { h with reference := rfl }

theorem Info.Silent.foldsTo {i : Info} (h : i.Silent) : i.FoldsTo i :=
  ⟨rfl, rfl, rfl, rfl, id, fun _ hv => hv, fun hv => by rw [h.1] at hv; cases hv⟩

theorem optionRel_of_forall {α : Type} {R : α → α → Prop} {o : Option α} (h : ∀ x ∈ o, R x x) : Option.Rel R o o := by
  cases o with
  | none => exact .none
  | some x => exact .some (h x rfl)

/-- On a fresh tree there is no value. -/
theorem Expr.Fresh.foldsTo {e : Expr} {b : Bool} (h : e.Fresh b) : e.FoldsTo e := by
  have hi : ∀ span : Span, Info.FoldsTo { span } { span } := fun span => Info.Silent.foldsTo ⟨rfl, rfl⟩
  induction h with
  | integer => exact .integer (hi _)
  | float => exact .float (hi _)
  | boolean => exact .boolean (hi _)
  | identifier => exact .identifier (hi _)
  | member _ ih => exact .member (hi _) ih
  | call _ _ ihcallee ihargs => exact .call (hi _) ihcallee (List.forall₂_same.mpr ihargs)
  | builtinCall _ ih => exact .builtinCall (hi _) (List.forall₂_same.mpr ih)
  | unary _ ih => exact .unary (hi _) ih
  | binary _ _ ihlhs ihrhs => exact .binary (hi _) ihlhs ihrhs
  | assignment _ _ ihtarget ihsource => exact .assignment (hi _) ihtarget ihsource
  | structLiteral _ ih => exact .structLiteral (hi _) (List.forall₂_same.mpr fun f hf => ⟨ih f hf⟩)
  | letBinding _ ih => exact .letBinding (hi _) ih
  | block _ _ ihstmts ihtail => exact .block (hi _) (List.forall₂_same.mpr ihstmts) (optionRel_of_forall ihtail)
  | ifElse _ _ _ ihcond ihthen ihother => exact .ifElse (hi _) ihcond ihthen (optionRel_of_forall ihother)
  | whileLoop _ _ ihcond ihbody => exact .whileLoop (hi _) ihcond ihbody
  | endlessLoop _ ih => exact .endlessLoop (hi _) ih
  | leaveLoop => exact .leaveLoop (hi _)
  | nextRound => exact .nextRound (hi _)
  | leaveFunction _ ih => exact .leaveFunction (hi _) (optionRel_of_forall ih)
  | function _ _ _ ih => exact .function (hi _) ih

namespace Expr.FoldsTo

variable {e e' : Expr} {b b' : Block Expr}

private theorem info (h : e.FoldsTo e') : e.info.FoldsTo e'.info := by
  cases h <;> assumption

private theorem span (h : e.FoldsTo e') : e'.span = e.span := h.info.span

private theorem type (h : e.FoldsTo e') : e'.type? = e.type? := h.info.type

private theorem blame_block (h : (Expr.block b).FoldsTo (.block b')) : b'.blame = b.blame := by
  cases h with
  | block hi hstmts htail =>
    cases htail with
    | none => exact hi.span
    | some h => exact h.span

private theorem blame (h : e.FoldsTo e') : e'.blame = e.blame := by
  cases h with
  | block hi hstmts htail => exact blame_block (.block hi hstmts htail)
  | integer hi | float hi | boolean hi | identifier hi | member hi | call hi | builtinCall hi | unary hi | binary hi
  | assignment hi | structLiteral hi | letBinding hi | ifElse hi | whileLoop hi | endlessLoop hi | leaveLoop hi
  | nextRound hi | leaveFunction hi | function hi => exact hi.span

/-- A tree denotes the same location with more values. -/
theorem hasLocation (e : Expr) {e' : Expr} (h : e.FoldsTo e') : e'.hasLocation = e.hasLocation := by
  match e with
  | .identifier i _ _ =>
    cases h with
    | identifier hi => simp only [Expr.hasLocation, hi.reference]
  | .member i base _ _ _ =>
    cases h with
    | member hi hbase => simp only [Expr.hasLocation, hbase.info.reference, hasLocation base hbase]
  | .integer .. | .float .. | .boolean .. | .call .. | .builtinCall .. | .unary .. | .binary .. | .assignment ..
  | .structLiteral .. | .letBinding .. | .block .. | .ifElse .. | .whileLoop .. | .endlessLoop .. | .leaveLoop ..
  | .nextRound .. | .leaveFunction .. | .function .. =>
    cases h
    rfl

theorem place (e : Expr) {e' : Expr} (h : e.FoldsTo e') : e'.place? = e.place? := by
  match e with
  | .identifier i _ _ =>
    cases h with
    | identifier hi => simp only [Expr.place?, hi.reference]
  | .member i base _ _ _ =>
    cases h with
    | member hi hbase => simp only [Expr.place?, hbase.info.reference, place base hbase]
  | .integer .. | .float .. | .boolean .. | .call .. | .builtinCall .. | .unary .. | .binary .. | .assignment ..
  | .structLiteral .. | .letBinding .. | .block .. | .ifElse .. | .whileLoop .. | .endlessLoop .. | .leaveLoop ..
  | .nextRound .. | .leaveFunction .. | .function .. =>
    cases h
    rfl

end Expr.FoldsTo

section

open RainCheck.Expr

mutual

/-- The nodes of a tree are related to those of the tree with more values, one by one. -/
private theorem foldsTo_nodes (e : Expr) {e' : Expr} (h : e.FoldsTo e') : List.Forall₂ FoldsTo e.nodes e'.nodes := by
  match e with
  | .integer .. | .float .. | .boolean .. | .identifier .. | .leaveLoop .. | .nextRound .. =>
    have hself := h
    cases h
    exact .cons hself .nil
  | .member _ base .. | .unary _ _ base | .letBinding _ _ _ base =>
    have hself := h
    cases h
    exact .cons hself (foldsTo_nodes base ‹_›)
  | .call _ callee args =>
    have hself := h
    cases h with
    | call _ hcallee hargs =>
        exact .cons hself (List.rel_append (foldsTo_nodes callee hcallee) (foldsTo_nodesAll args hargs))
  | .builtinCall _ _ args =>
    have hself := h
    cases h with
    | builtinCall _ hargs => exact .cons hself (foldsTo_nodesAll args hargs)
  | .binary _ _ lhs rhs | .assignment _ lhs rhs =>
    have hself := h
    cases h
    exact .cons hself (List.rel_append (foldsTo_nodes lhs ‹_›) (foldsTo_nodes rhs ‹_›))
  | .structLiteral _ _ inits =>
    have hself := h
    cases h with
    | structLiteral _ hinits => exact .cons hself (foldsTo_nodesFields inits hinits)
  | .block b =>
    obtain ⟨b', rfl⟩ : ∃ b', e' = .block b' := by cases h; exact ⟨_, rfl⟩
    exact foldsTo_nodesBlock b h
  | .ifElse _ cond thenBlock other =>
    have hself := h
    cases h with
    | ifElse _ hcond hthen hother =>
      exact .cons hself
        (List.rel_append (List.rel_append (foldsTo_nodes cond hcond) (foldsTo_nodesBlock thenBlock hthen))
        (foldsTo_nodesOption other hother))
  | .whileLoop _ cond body =>
    have hself := h
    cases h with
    | whileLoop _ hcond hbody =>
        exact .cons hself (List.rel_append (foldsTo_nodes cond hcond) (foldsTo_nodesBlock body hbody))
  | .endlessLoop _ body =>
    have hself := h
    cases h with
    | endlessLoop _ hbody => exact .cons hself (foldsTo_nodesBlock body hbody)
  | .leaveFunction _ result =>
    have hself := h
    cases h with
    | leaveFunction _ hresult => exact .cons hself (foldsTo_nodesOption result hresult)
  | .function _ _ body =>
    have hself := h
    cases h with
    | function _ hbody => exact .cons hself (foldsTo_nodesBlock body hbody)

private theorem foldsTo_nodesOption (e : Option Expr) {e' : Option Expr} (h : Option.Rel FoldsTo e e') :
    List.Forall₂ FoldsTo (nodesOption e) (nodesOption e') := by
  match e with
  | none => cases h with | none => exact .nil
  | some e => cases h with | some he => exact foldsTo_nodes e he

private theorem foldsTo_nodesAll (es : List Expr) {es' : List Expr} (h : List.Forall₂ FoldsTo es es') :
    List.Forall₂ FoldsTo (nodesAll es) (nodesAll es') := by
  match es with
  | [] => cases h with | nil => exact .nil
  | e :: rest => cases h with | cons he hrest =>
      exact List.rel_append (foldsTo_nodes e he) (foldsTo_nodesAll rest hrest)

private theorem foldsTo_nodesFields (inits : List (FieldInit Expr)) {inits' : List (FieldInit Expr)}
    (h : List.Forall₂ (FieldInit.Rel FoldsTo) inits inits') :
    List.Forall₂ FoldsTo (nodesFields inits) (nodesFields inits') := by
  match inits with
  | [] => cases h with | nil => exact .nil
  | ⟨name, span, value⟩ :: rest =>
    cases h with
    | cons hf hrest =>
      cases hf with
      | mk hvalue => exact List.rel_append (foldsTo_nodes value hvalue) (foldsTo_nodesFields rest hrest)

theorem foldsTo_nodesBlock (b : Block Expr) {b' : Block Expr} (h : (Expr.block b).FoldsTo (.block b')) :
    List.Forall₂ FoldsTo (nodesBlock b) (nodesBlock b') := by
  match b with
  | ⟨_, _, stmts, tail⟩ =>
    have hself := h
    cases h with
    | block _ hstmts htail =>
      exact .cons hself (List.rel_append (foldsTo_nodesAll stmts hstmts) (foldsTo_nodesOption tail htail))

end

end

/-! ### Actions that end alike -/

namespace Action

variable {α β γ δ : Type} {R : α → β → Prop} {Q : γ → δ → Prop}

/-- Two actions do the same to a store and end alike, with results such that `R` holds; or the second one is faulty. -/
def Agree (R : α → β → Prop) (a : Action α) (b : Action β) : Prop :=
  ∀ s, (∃ f s', b.run.run s = (.error (.fault f), s')) ∨
    (∃ x y s', a.run.run s = (.ok x, s') ∧ b.run.run s = (.ok y, s') ∧ R x y) ∨
    ∃ why s', a.run.run s = (.error why, s') ∧ b.run.run s = (.error why, s')

private theorem agree_same {R : α → α → Prop} (a : Action α) (h : ∀ x, R x x) : Agree R a a := by
  intro s
  rcases hrun : a.run.run s with ⟨why | x, s'⟩
  · exact .inr (.inr ⟨why, s', rfl, rfl⟩)
  · exact .inr (.inl ⟨x, x, s', rfl, rfl, h x⟩)

theorem agree_pure {x : α} {y : β} (h : R x y) : Agree R (pure x) (pure y) :=
  fun s => .inr (.inl ⟨x, y, s, rfl, rfl, h⟩)

private theorem agree_fail {a : Action α} {f : Fault} : Agree R a (fail f : Action β) := fun s => .inl ⟨f, s, rfl⟩

theorem Agree.bind {a : Action α} {b : Action β} {f : α → Action γ} {g : β → Action δ} (h : Agree R a b)
    (hf : ∀ x y, R x y → Agree Q (f x) (g y)) : Agree Q (a >>= f) (b >>= g) := by
  intro s
  rw [run_bind, run_bind]
  rcases h s with ⟨why, s', hb⟩ | ⟨x, y, s', ha, hb, hR⟩ | ⟨why, s', ha, hb⟩
  · rw [hb]
    exact .inl ⟨why, s', rfl⟩
  · rw [ha, hb]
    exact hf x y hR s'
  · rw [ha, hb]
    exact .inr (.inr ⟨why, s', rfl, rfl⟩)

/-- What comes first is the same in both. -/
private theorem agree_then {a : Action α} {f : α → Action γ} {g : α → Action δ} (h : ∀ x, Agree Q (f x) (g x)) :
    Agree Q (a >>= f) (a >>= g) :=
  (agree_same (R := Eq) a fun _ => rfl).bind fun x _ hxy => hxy ▸ h x

private theorem agree_refuse {span : Span} {cause : Cause} {f : α → Action γ} {g : β → Action δ} :
    Agree Q (refuse span cause >>= f) (refuse span cause >>= g) :=
  fun s => .inr (.inr ⟨_, s, rfl, rfl⟩)

private theorem agree_refused {span : Span} {cause : Cause} : Agree R (refuse span cause) (refuse span cause) :=
  fun s => .inr (.inr ⟨_, s, rfl, rfl⟩)

/-! ### Rules -/

variable {info : Info}

private theorem typeOf_eq {i j : Info} (h : i.FoldsTo j) : typeOf j = typeOf i := by
  unfold typeOf
  rw [h.type]

theorem agree_settle {i j : Info} (h : i.FoldsTo j) : Agree Info.FoldsTo (settle i) (settle j) := by
  unfold settle
  rw [typeOf_eq h]
  exact agree_then fun t => agree_then fun b => agree_pure (h.noted b)

/-- An operation may have a value in addition, if it could be computed at all. -/
private theorem foldsTo_operation {t : TypeId} {o o' : Option Value} {compileTime : Bool} (hinfo : info.Silent)
    (h : ∀ v, o = some v → o' = some v) (hcompileTime : o'.isSome = true → compileTime = true) :
    (operationInfo info t o compileTime).FoldsTo (operationInfo info t o' compileTime) := by
  cases o with
  | some v =>
    rw [h v rfl]
    exact ⟨rfl, rfl, rfl, rfl, id, fun _ hv => hv, fun _ => rfl⟩
  | none =>
    have hvalue : (operationInfo info t none compileTime).value = none := hinfo.1
    cases o' with
    | none => exact Info.Silent.foldsTo ⟨hinfo.1, rfl⟩
    | some v =>
      obtain rfl := hcompileTime rfl
      refine ⟨rfl, rfl, rfl, rfl, nofun, fun w hw => ?_, fun _ => rfl⟩
      rw [hvalue] at hw
      cases hw

/-- A rule that looks at nothing that can change, and finds no value. -/
theorem Always.agree {rule : Action Info} (h : rule.Always Info.Silent) : Agree Info.FoldsTo rule rule := by
  intro s
  rcases hrun : rule.run.run s with ⟨why | i, s'⟩
  · exact .inr (.inr ⟨why, s', rfl, rfl⟩)
  · exact .inr (.inl ⟨i, i, s', rfl, rfl, (h s i s' hrun).foldsTo⟩)

theorem expectExpr_eq {e e' : Expr} (h : e.FoldsTo e') : expectExpr e' = expectExpr e := by
  funext t
  unfold expectExpr
  rw [h.blame, h.type]

theorem expectBlock_eq {b b' : Block Expr} (h : (Expr.block b).FoldsTo (.block b')) :
    expectBlock b' = expectBlock b := by
  funext t
  unfold expectBlock
  rw [h.blame_block, show b'.info.type = b.info.type from h.type]

private theorem expectAll_eq {es es' : List Expr} (h : List.Forall₂ Expr.FoldsTo es es') :
    expectAll es' = expectAll es := by
  induction h with
  | nil => rfl
  | cons he _ ih =>
    funext ts
    cases ts with
    | nil => rfl
    | cons t ts => simp only [expectAll, expectExpr_eq he, ih]

theorem memberRule_eq {base base' : Expr} (h : base.FoldsTo base') : memberRule info base' = memberRule info base := by
  funext name span
  unfold memberRule
  rw [typeOf_eq h.info, h.span]

theorem callRule_eq {callee callee' : Expr} {args args' : List Expr} (h : callee.FoldsTo callee')
    (hargs : List.Forall₂ Expr.FoldsTo args args') : callRule info callee' args' = callRule info callee args := by
  unfold callRule
  rw [typeOf_eq h.info, h.span, expectAll_eq hargs, hargs.length_eq]

theorem assignmentRule_eq {target target' source source' : Expr} (h : target.FoldsTo target')
    (hsource : source.FoldsTo source') : assignmentRule info target' source' = assignmentRule info target source := by
  unfold assignmentRule expectMutable
  rw [h.place, h.hasLocation, h.span, typeOf_eq h.info, expectExpr_eq hsource]

theorem letRule_eq {fr : FrameId} {binding : Holder Variable} {declared : Option TypeExpr} {init init' : Expr}
    (h : init.FoldsTo init') : letRule fr binding declared init' = letRule fr binding declared init := by
  unfold letRule
  rw [expectExpr_eq h, typeOf_eq h.info]

theorem blockRule_eq {stmts stmts' : List Expr} {tail tail' : Option Expr} (h : List.Forall₂ Expr.FoldsTo stmts stmts')
    (htail : Option.Rel Expr.FoldsTo tail tail') : blockRule info stmts' tail' = blockRule info stmts tail := by
  have hany : (stmts'.any fun e => e.type? = some TypeId.never) = stmts.any fun e => e.type? = some TypeId.never := by
    induction h with
    | nil => rfl
    | cons he _ ih => rw [List.any_cons, List.any_cons, he.type, ih]
  unfold blockRule
  cases htail with
  | none => simp only [hany]
  | some he => simp only [typeOf_eq he.info]

theorem ifRule_eq {thenBlock then' : Block Expr} {other other' : Option Expr}
    (h : (Expr.block thenBlock).FoldsTo (.block then')) (hother : Option.Rel Expr.FoldsTo other other') :
    ifRule info then' other' = ifRule info thenBlock other := by
  unfold ifRule
  cases hother with
  | none => simp only [expectBlock_eq h]
  | some he =>
    have htype : typeOf then'.info = typeOf thenBlock.info := typeOf_eq h.info
    simp only [htype, typeOf_eq he.info, expectExpr_eq he]

theorem returnRule_eq {returns : Option TypeId} {result result' : Option Expr}
    (h : Option.Rel Expr.FoldsTo result result') :
    returnRule info returns result' = returnRule info returns result := by
  cases h with
  | none => rfl
  | some he =>
    unfold returnRule
    simp only [expectResult, expectExpr_eq he]

/-! ### Rules that find a value -/

private theorem agree_negation {op : UnaryOp} {operand operand' : Expr} {expected : String} {takes : TypeId → Bool}
    (hinfo : info.Silent) (h : operand.FoldsTo operand') :
    Agree Info.FoldsTo (negationRule info op operand expected takes)
      (negationRule info op operand' expected takes) := by
  unfold negationRule
  rw [typeOf_eq h.info, h.span, h.info.compileTime]
  refine agree_then fun outer => agree_then fun type => ?_
  have hoperation : Agree Info.FoldsTo
      (pure (operationInfo info type (operand.info.value.bind (Value.unary? op)) operand.info.compileTime))
      (pure (operationInfo info type (operand'.info.value.bind (Value.unary? op)) operand.info.compileTime)) := by
    refine agree_pure (foldsTo_operation hinfo (fun v hv => ?_) fun hsome => h.info.computed ?_)
    · obtain ⟨w, hw, hv⟩ := Option.bind_eq_some_iff.mp hv
      rw [h.info.value w hw]
      exact hv
    · cases hvalue : operand'.info.value with
      | none =>
        rw [hvalue] at hsome
        cases hsome
      | some w => rfl
  split
  · exact agree_then fun _ => agree_refuse
  · exact hoperation

theorem agree_unary {op : UnaryOp} {operand operand' : Expr} (hinfo : info.Silent) (h : operand.FoldsTo operand') :
    Agree Info.FoldsTo (unaryRule info op operand) (unaryRule info op operand') := by
  cases op with
  | negate => exact agree_negation hinfo h
  | invert => exact agree_negation hinfo h
  | address =>
    have hrule : addressRule info operand' = addressRule info operand := by
      unfold addressRule
      rw [typeOf_eq h.info, h.hasLocation, h.span]
    unfold unaryRule
    dsimp only
    rw [hrule]
    exact (addressRule_silent hinfo).agree

/-- A value that is found for an operation, and one that is found with more values. -/
structure Found (compileTime : Bool) (o o' : Option Value) : Prop where
  kept : ∀ v, o = some v → o' = some v
  computed : o'.isSome = true → compileTime = true

private theorem agree_foldOperands {op : BinaryOp} {l l' r r' : Info} (hl : l.FoldsTo l') (hr : r.FoldsTo r') :
    Agree (Found (l.compileTime && r.compileTime)) (foldOperands op l r) (foldOperands op l' r') := by
  unfold foldOperands
  split
  · -- both operands have the same values in both
    rename_i v w hv hw
    rw [hl.value v hv, hr.value w hw]
    dsimp only
    have hcompileTime : (l.compileTime && r.compileTime) = true := by
      rw [hl.computed (by rw [hl.value v hv]; rfl), hr.computed (by rw [hr.value w hw]; rfl)]
      rfl
    exact agree_same _ fun o => ⟨fun _ h => h, fun _ => hcompileTime⟩
  · split
    · rename_i v w hv hw
      have hcompileTime : (l.compileTime && r.compileTime) = true := by
        rw [hl.computed (by rw [hv]; rfl), hr.computed (by rw [hw]; rfl)]
        rfl
      cases Value.binary? op v w with
      | error f => exact agree_fail
      | ok o => exact agree_pure ⟨nofun, fun _ => hcompileTime⟩
    · exact agree_pure ⟨nofun, nofun⟩

theorem agree_binary {op : BinaryOp} {lhs lhs' rhs rhs' : Expr} (hinfo : info.Silent) (hl : lhs.FoldsTo lhs')
    (hr : rhs.FoldsTo rhs') : Agree Info.FoldsTo (binaryRule info op lhs rhs) (binaryRule info op lhs' rhs') := by
  unfold binaryRule
  rw [typeOf_eq hl.info, typeOf_eq hr.info, hl.span, hr.span, hl.info.compileTime, hr.info.compileTime]
  refine agree_then fun _ => agree_then fun left => agree_then fun _ => agree_then fun right => ?_
  have hvalue : ∀ t, Agree Info.FoldsTo
      (foldOperands op lhs.info rhs.info >>= fun o =>
        pure (operationInfo info t o (lhs.info.compileTime && rhs.info.compileTime)))
      (foldOperands op lhs'.info rhs'.info >>= fun o =>
        pure (operationInfo info t o (lhs.info.compileTime && rhs.info.compileTime))) :=
    fun t => (agree_foldOperands hl.info hr.info).bind fun o o' h =>
      agree_pure (foldsTo_operation hinfo h.kept h.computed)
  dsimp only
  split
  · exact agree_then fun _ => agree_refuse
  · split
    · exact agree_then fun _ => agree_then fun _ => agree_refuse
    · exact hvalue _

private theorem matchSecond_eq {t : TypeId} {args args' : List Expr} (h : List.Forall₂ Expr.FoldsTo args args') :
    matchSecond t args' = matchSecond t args := by
  cases h with
  | nil => rfl
  | cons hfirst hrest =>
    cases hrest with
    | nil => rfl
    | cons hsecond hmore =>
      cases hmore with
      | nil => simp only [matchSecond, typeOf_eq hsecond.info, hsecond.span]
      | cons => rfl

/-- All expressions that have values can be computed. -/
private theorem computed_valuesOf {args args' : List Expr} {values : List Value}
    (h : List.Forall₂ Expr.FoldsTo args args')
    (hvalues : valuesOf args' = some values) : args.all (·.info.compileTime) = true := by
  induction h generalizing values with
  | nil => rfl
  | @cons e e' rest rest' he _ ih =>
    unfold valuesOf at hvalues ih
    rw [List.mapM_cons] at hvalues
    obtain ⟨v, hv, hvalues⟩ := Option.bind_eq_some_iff.mp hvalues
    obtain ⟨vs, hvs, -⟩ := Option.bind_eq_some_iff.mp hvalues
    rw [List.all_cons, he.info.computed (by rw [hv]; rfl), ih hvs]
    rfl

private theorem agree_foldArguments {o o' : Options} {b : Builtin} {args args' : List Expr} (ho : o.FoldsTo o')
    (h : List.Forall₂ Expr.FoldsTo args args') :
    Agree (Found (args.all (·.info.compileTime))) (foldArguments o b args) (foldArguments o' b args') := by
  unfold foldArguments
  rw [ho.off, ho.on]
  cases hvalues : valuesOf args' with
  | none => exact agree_pure ⟨nofun, nofun⟩
  | some values =>
    dsimp only
    cases b.value? values with
    | error f => exact agree_fail
    | ok v => exact agree_pure ⟨nofun, fun _ => computed_valuesOf h hvalues⟩

theorem agree_builtin {o o' : Options} {b : Builtin} {args args' : List Expr} (ho : o.FoldsTo o') (hinfo : info.Silent)
    (h : List.Forall₂ Expr.FoldsTo args args') :
    Agree Info.FoldsTo (builtinRule o info b args) (builtinRule o' info b args') := by
  have hall : args'.all (·.info.compileTime) = args.all (·.info.compileTime) := by
    clear hinfo
    induction h with
    | nil => rfl
    | cons he _ ih => rw [List.all_cons, List.all_cons, he.info.compileTime, ih]
  have hfeature : expectFeature o' info b = expectFeature o info b := by
    rw [ho.on]
    rfl
  have hfold := agree_foldArguments (b := b) ho h
  have hsecond := fun t => matchSecond_eq (t := t) h
  unfold builtinRule
  rw [← h.length_eq, hall, hfeature]
  dsimp only
  split
  · exact agree_refuse
  · cases h with
    | nil => exact agree_fail
    | cons hfirst hrest =>
      dsimp only
      rw [typeOf_eq hfirst.info, hfirst.span]
      refine agree_then fun _ => agree_then fun t => ?_
      split
      · exact agree_then fun _ => agree_refuse
      · rw [hsecond]
        refine agree_then fun _ => agree_then fun _ => hfold.bind fun v v' hv => ?_
        exact agree_pure (foldsTo_operation hinfo hv.kept hv.computed)

theorem agree_literal {t : TypeId} {owner : String} {declared : List (String × TypeId)}
    {inits inits' : List (FieldInit Expr)} (hinfo : info.Silent)
    (h : List.Forall₂ (FieldInit.Rel Expr.FoldsTo) inits inits') :
    Agree Info.FoldsTo (literalRule info t owner declared inits) (literalRule info t owner declared inits') := by
  have hnames : ∀ name, (inits'.any fun f => f.name = name) = inits.any fun f => f.name = name := by
    intro name
    induction h with
    | nil => rfl
    | cons hf _ ih =>
      cases hf
      rw [List.any_cons, List.any_cons, ih]
  have hcompileTime : inits'.all (·.value.info.compileTime) = inits.all (·.value.info.compileTime) := by
    clear hinfo hnames
    induction h with
    | nil => rfl
    | cons hf _ ih =>
      cases hf with
      | mk he => rw [List.all_cons, List.all_cons, he.info.compileTime, ih]
  have hconstant : inits.all (·.value.info.constant) = true → inits'.all (·.value.info.constant) = true := by
    clear hinfo hnames hcompileTime
    intro hall
    induction h with
    | nil => rfl
    | cons hf _ ih =>
      cases hf with
      | mk he =>
        rw [List.all_cons, Bool.and_eq_true] at hall ⊢
        exact ⟨he.info.constant hall.1, ih hall.2⟩
  unfold literalRule
  simp only [hnames, hcompileTime]
  split
  · exact agree_refused
  · refine agree_pure ⟨rfl, rfl, rfl, rfl, hconstant, fun v hv => hv, fun hv => ?_⟩
    rw [show (info.resolve t _ _).value = info.value from rfl, hinfo.1] at hv
    cases hv

end Action

end RainCheck
