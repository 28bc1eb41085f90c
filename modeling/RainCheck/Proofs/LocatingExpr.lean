import RainCheck.Check.Expr
import RainCheck.Proofs.Locals
import RainCheck.Proofs.Locating

/-!
# Where problems of expressions are found

Between declarations every struct of the module is decided, and every function that a name can mean has its type or has
failed (`Store.Fit`).  From then on a problem of a function body lies in the body, or was on record before.
* (rules) Each rule locates its problems at the expression it is about.
* (stores) Looking up names and entering functions keeps a store fit.
* (walks) So does the check of a whole body, up to the problem that ends it (`minds_functionWith`).
-/

namespace RainCheck

open RainCheck.Action

/-! ### Rules -/

section

variable {P : Span → Prop} {info i : Info} {e : Expr} {args : List Expr} {t : TypeId}

private theorem locates_typeOf : Locates P (fun _ => True) (typeOf i) :=
  locates_lift.imp (fun _ h => h) fun _ _ => trivial

private theorem locates_load : Locates P (fun _ => True) (load t) := locates_fromTypes

private theorem locates_settle (hi : P i.span) : Locates P (fun j => P j.span) (settle i) :=
  locates_typeOf.bind fun _ _ => locates_fromTypes.bind fun _ _ => locates_pure hi

private theorem locates_expectType {blame : Span} {actual : Option TypeId} (hblame : P blame) :
    Locates P (fun _ => True) (expectType blame actual t) := by
  refine locates_lift.bind fun _ _ => locates_fromTypes.bind fun _ _ => ?_
  split
  · exact locates_textOf.bind fun _ _ => locates_textOf.bind fun _ _ => locates_refuse hblame
  · exact locates_pure trivial

private theorem locates_expectExpr (he : e.Lies P) : Locates P (fun _ => True) (expectExpr e t) :=
  locates_expectType he.blame

private theorem locates_expectBlock {b : Block Expr} (hb : (Expr.block b).Lies P) :
    Locates P (fun _ => True) (expectBlock b t) :=
  locates_expectType hb.blame

private theorem locates_expectAll {ts : List TypeId} (hargs : ∀ e ∈ args, e.Lies P) :
    Locates P (fun _ => True) (expectAll args ts) := by
  induction args generalizing ts with
  | nil => exact locates_pure trivial
  | cons e rest ih =>
    cases ts with
    | nil => exact locates_fail
    | cons t ts =>
      exact (locates_expectExpr (hargs e List.mem_cons_self)).bind fun _ _ =>
        ih fun e he => hargs e (List.mem_cons_of_mem _ he)

private theorem locates_fieldsOf : Locates P (fun _ => True) (fieldsOf t) := by
  refine locates_fromTypes.bind fun e _ => ?_
  cases e.struct? with
  | none => exact locates_fail
  | some s => exact locates_pure trivial

private theorem locates_member {name : String} {nameSpan : Span} (hinfo : P info.span)
    (he : e.Lies P) (hname : P nameSpan) :
    Locates P (fun r => P r.2.span) (memberRule info e name nameSpan) := by
  refine locates_typeOf.bind fun _ _ => locates_load.bind fun _ _ => locates_fromTypes.bind fun entry _ => ?_
  cases entry.struct? with
  | none => exact locates_textOf.bind fun _ _ => locates_refuse he.span
  | some s =>
    refine (locates_complete hname).bind fun _ _ => locates_fieldsOf.bind fun found _ => ?_
    obtain ⟨owner, fields⟩ := found
    dsimp only
    cases fields.findIdx? (·.1 = name) with
    | none => exact locates_refuse hname
    | some index => exact locates_lift.bind fun _ _ => locates_pure hinfo

private theorem locates_call {callee : Expr} (hinfo : P info.span) (hcallee : callee.Lies P)
    (hargs : ∀ e ∈ args, e.Lies P) :
    Locates P (fun j => P j.span) (callRule info callee args) := by
  refine locates_typeOf.bind fun _ _ => locates_fromTypes.bind fun entry _ => ?_
  cases entry.function? with
  | none => exact locates_textOf.bind fun _ _ => locates_refuse hcallee.span
  | some f =>
    dsimp only
    split
    · exact locates_refuse_bind hinfo
    · exact (locates_expectAll hargs).bind fun _ _ => locates_pure hinfo

private theorem locates_operation {type : TypeId} {value : Option Value} {compileTime : Bool} (hinfo : P info.span) :
    Locates P (fun j => P j.span) (pure (operationInfo info type value compileTime)) := by
  refine locates_pure ?_
  unfold operationInfo
  cases value <;> exact hinfo

private theorem locates_unary {op : UnaryOp} (hinfo : P info.span) (he : e.Lies P) :
    Locates P (fun j => P j.span) (unaryRule info op e) := by
  have hnegation : ∀ {op : UnaryOp} {expected : String} {takes : TypeId → Bool},
      Locates P (fun j => P j.span) (negationRule info op e expected takes) := by
    intro op expected takes
    refine locates_typeOf.bind fun _ _ => locates_load.bind fun _ _ => ?_
    split
    · exact locates_textOf.bind fun _ _ => locates_refuse_bind he.span
    · exact locates_operation hinfo
  cases op with
  | negate => exact hnegation
  | invert => exact hnegation
  | address =>
    refine locates_typeOf.bind fun _ _ => locates_lift.bind fun _ _ => ?_
    split
    · exact locates_refuse_bind he.span
    · exact locates_reference.bind fun _ _ => locates_pure hinfo

private theorem locates_foldOperands {op : BinaryOp} {l r : Info} :
    Locates P (fun _ => True) (foldOperands op l r) := by
  unfold foldOperands
  split
  · exact locates_lift.imp (fun _ h => h) fun _ _ => trivial
  · exact locates_pure trivial

private theorem locates_binary {op : BinaryOp} {lhs rhs : Expr} (hinfo : P info.span)
    (hlhs : lhs.Lies P) (hrhs : rhs.Lies P) :
    Locates P (fun j => P j.span) (binaryRule info op lhs rhs) := by
  refine locates_typeOf.bind fun _ _ => locates_load.bind fun _ _ => locates_typeOf.bind fun _ _ =>
    locates_load.bind fun _ _ => ?_
  dsimp only
  split
  · exact locates_textOf.bind fun _ _ => locates_refuse_bind hlhs.span
  split
  · exact locates_textOf.bind fun _ _ => locates_textOf.bind fun _ _ => locates_refuse_bind hrhs.span
  · exact locates_foldOperands.bind fun _ _ => locates_operation hinfo

private theorem locates_assignment {target source : Expr} (hinfo : P info.span) (htarget : target.Lies P)
    (hsource : source.Lies P) :
    Locates P (fun j => P j.span) (assignmentRule info target source) := by
  have hmutable : Locates P (fun _ => True) (expectMutable target) := by
    refine locates_lift.bind fun place _ => ?_
    cases place with
    | none => exact locates_pure trivial
    | some place =>
      dsimp only
      split
      · exact locates_refuse htarget.span
      · exact locates_pure trivial
  refine hmutable.bind fun _ _ => locates_lift.bind fun _ _ => ?_
  split
  · exact locates_refuse_bind htarget.span
  · exact locates_typeOf.bind fun _ _ => locates_load.bind fun _ _ =>
      (locates_expectExpr hsource).bind fun _ _ => locates_pure hinfo

private theorem locates_findBuiltin {name : String} (hinfo : P info.span) :
    Locates P (fun _ => True) (findBuiltin info name) := by
  unfold findBuiltin
  cases Builtin.ofName? name with
  | none => exact locates_refuse hinfo
  | some b => exact locates_pure trivial

private theorem locates_matchSecond (hargs : ∀ e ∈ args, e.Lies P) :
    Locates P (fun _ => True) (matchSecond t args) := by
  unfold matchSecond
  split
  · rename_i second
    refine locates_typeOf.bind fun _ _ => locates_load.bind fun _ _ => ?_
    split
    · exact locates_textOf.bind fun _ _ => locates_textOf.bind fun _ _ => locates_refuse (hargs second (by simp)).span
    · exact locates_pure trivial
  · exact locates_pure trivial

private theorem locates_builtin {options : Options} {b : Builtin} (hinfo : P info.span) (hargs : ∀ e ∈ args, e.Lies P) :
    Locates P (fun j => P j.span) (builtinRule options info b args) := by
  have hfeature : ∀ t, Locates P (fun _ => True) (expectFeature options info b t) := fun t => by
    unfold expectFeature
    cases b.family.feature? t with
    | none => exact locates_pure trivial
    | some feature =>
      dsimp only
      split
      · exact locates_refuse hinfo
      · exact locates_pure trivial
  have hfold : Locates P (fun _ => True) (foldArguments options b args) := by
    unfold foldArguments
    split
    · exact locates_lift.imp (fun _ h => h) fun _ _ => trivial
    · exact locates_pure trivial
  unfold builtinRule
  dsimp only
  split
  · exact locates_refuse_bind hinfo
  cases args with
  | nil => exact locates_fail
  | cons first rest =>
    refine locates_typeOf.bind fun _ _ => locates_load.bind fun t _ => ?_
    split
    · exact locates_textOf.bind fun _ _ => locates_refuse_bind (hargs first List.mem_cons_self).span
    · exact (locates_matchSecond hargs).bind fun _ _ => (hfeature t).bind fun _ _ => hfold.bind fun _ _ =>
        locates_operation hinfo

private theorem locates_literalStruct {fr : FrameId} {name : String} (hinfo : P info.span) :
    Locates P (fun _ => True) (literalStruct fr info name) := by
  refine locates_get.bind fun _ _ => locates_lift.bind fun found _ => ?_
  cases found with
  | none => exact locates_refuse hinfo
  | some type =>
    refine locates_fromTypes.bind fun entry _ => ?_
    cases entry.struct? with
    | none => exact locates_refuse hinfo
    | some s => exact (locates_complete hinfo).bind fun _ _ => locates_fieldsOf.bind fun _ _ => locates_pure trivial

private theorem locates_field {owner name : String} {declared : List (String × TypeId)}
    {seen : List String} {span : Span}
    (hspan : P span) : Locates P (fun _ => True) (fieldRule owner declared seen name span) := by
  unfold fieldRule
  cases declared.findIdx? (·.1 = name) with
  | none => exact locates_refuse hspan
  | some index =>
    dsimp only
    split
    · exact locates_refuse_bind hspan
    · exact locates_lift.bind fun _ _ => locates_pure trivial

private theorem locates_literal {owner : String} {declared : List (String × TypeId)} {inits : List (FieldInit Expr)}
    (hinfo : P info.span) : Locates P (fun j => P j.span) (literalRule info t owner declared inits) := by
  unfold literalRule
  cases declared.find? (fun d => !inits.any (·.name = d.1)) with
  | none => exact locates_pure hinfo
  | some missing => exact locates_refuse hinfo

private theorem locates_let {fr : FrameId} {binding : Holder Variable} {declared : Option TypeExpr}
    (hbinding : ∀ v, binding.value? = some v → v.Lies P) (hdeclared : ∀ m ∈ TypeExpr.optionMentions declared, P m.span)
    (he : e.Lies P) : Locates P (Variable.Lies P) (letRule fr binding declared e) := by
  refine locates_lift.bind fun v hv => ?_
  have hlies : v.Lies P := hbinding v (by cases binding <;> cases hv <;> rfl)
  cases declared with
  | none => exact locates_typeOf.bind fun _ _ => locates_pure ⟨hlies.span, hlies.plain⟩
  | some declared =>
    exact (locates_resolveType hdeclared).bind fun _ _ => (locates_expectExpr he).bind fun _ _ =>
      locates_pure ⟨hlies.span, hlies.plain⟩

private theorem locates_blockRule {stmts : List Expr} {tail : Option Expr} (hinfo : P info.span) :
    Locates P (fun j => P j.span) (blockRule info stmts tail) := by
  cases tail with
  | none => exact locates_pure hinfo
  | some e => exact locates_typeOf.bind fun _ _ => locates_pure hinfo

private theorem locates_if {thenBlock : Block Expr} {other : Option Expr} (hinfo : P info.span)
    (hthen : (Expr.block thenBlock).Lies P) (hother : ∀ e ∈ other, e.Lies P) :
    Locates P (fun j => P j.span) (ifRule info thenBlock other) := by
  cases other with
  | none => exact (locates_expectBlock hthen).bind fun _ _ => locates_pure hinfo
  | some e =>
    refine locates_typeOf.bind fun _ _ => locates_typeOf.bind fun _ _ => locates_fromTypes.bind fun _ _ => ?_
    split
    · exact locates_pure hinfo
    refine locates_fromTypes.bind fun _ _ => ?_
    split
    · exact locates_pure hinfo
    · exact (locates_expectExpr (hother e rfl)).bind fun _ _ => locates_pure hinfo

private theorem locates_loop {body : Block Expr} (hinfo : P info.span) (hbody : (Expr.block body).Lies P) :
    Locates P (fun j => P j.span) (do
      expectBlock body TypeId.void
      return info.resolve t false false) :=
  (locates_expectBlock hbody).bind fun _ _ => locates_pure hinfo

private theorem locates_jump {keyword : String} {inLoop : Bool} (hinfo : P info.span) :
    Locates P (fun j => P j.span) (jumpRule info keyword inLoop) := by
  unfold jumpRule
  split
  · exact locates_refuse_bind hinfo
  · exact locates_pure hinfo

private theorem locates_return {returns : Option TypeId} {result : Option Expr} (hinfo : P info.span)
    (hresult : ∀ e ∈ result, e.Lies P) : Locates P (fun j => P j.span) (returnRule info returns result) := by
  have hexpect : ∀ t, Locates P (fun _ => True) (expectResult info t result) := fun t => by
    cases result with
    | none =>
      unfold expectResult
      dsimp only
      split
      · exact locates_textOf.bind fun _ _ => locates_textOf.bind fun _ _ => locates_refuse hinfo
      · exact locates_pure trivial
    | some e => exact locates_expectExpr (hresult e rfl)
  cases returns with
  | none => exact locates_refuse hinfo
  | some t => exact (hexpect t).bind fun _ _ => locates_pure hinfo

end

/-! ### Stores between declarations -/

/-- The type of a function is resolved, or the function has failed. -/
def FunctionRecord.Decided (r : FunctionRecord) : Prop := r.signature.isSome = true ∨ r.failure.isSome = true

namespace Store

/--
All registered structs are decided, and so are the functions that are registered or stand in frames,
but for those that are `pending`.  All problems on record are `known`.
-/
structure Fit (known : Diagnostic → Prop) (pending : Span → Prop) (s : Store) : Prop where
  linked : s.Linked
  structs : ∀ id decl, s.typeAt? id = some (.struct decl .unresolved) → s.structs.find? decl.span = none
  recorded : ∀ d ∈ s.recorded, known d
  functions : ∀ fr f p, s.frame? fr = some f → p ∈ f.values → p.2.kind.isFunction = true →
    pending p.2.span ∨ (s.function p.2.span).Decided
  registered : ∀ key, (s.function key).variableType.isSome = true → pending key ∨ (s.function key).Decided

/-- A problem is known or lies at a given place, and it is the only new one on record. -/
def Caught (known : Diagnostic → Prop) (P : Span → Prop) (d : Diagnostic) (s : Store) : Prop :=
  (known d ∨ P d.span) ∧ s.Fit (fun x => known x ∨ x = d) fun _ => False

variable {known : Diagnostic → Prop} {pending pending' : Span → Prop} {P : Span → Prop} {s s' : Store}

theorem Fit.mono {known' : Diagnostic → Prop} (h : s.Fit known pending) (hknown : ∀ d, known d → known' d)
    (hpending : ∀ key, pending key → pending' key) : s.Fit known' pending' where
  linked := h.linked
  structs := h.structs
  recorded d hd := hknown d (h.recorded d hd)
  functions fr f p hf hp hkind := (h.functions fr f p hf hp hkind).imp_left (hpending _)
  registered key hkey := (h.registered key hkey).imp_left (hpending key)

private theorem Fit.caught {d : Diagnostic} (h : s.Fit known fun _ => False) (hd : known d ∨ P d.span) :
    s.Caught known P d :=
  ⟨hd, h.mono (fun _ => .inl) fun _ hfalse => hfalse⟩

/-- A function that is decided is not pending any more. -/
private theorem Fit.decided {key : Span} (h : s.Fit known pending) (hkey : (s.function key).Decided) :
    s.Fit known fun k => pending k ∧ k ≠ key := by
  have hother :
      ∀ k, pending k ∨ (s.function k).Decided → (pending k ∧ k ≠ key) ∨ (s.function k).Decided := fun k hk => by
    by_cases hspan : k = key
    · exact .inr (hspan ▸ hkey)
    · exact hk.imp_left fun hwaiting => ⟨hwaiting, hspan⟩
  exact
    { h with
      functions := fun fr f p hf hp hkind => hother _ (h.functions fr f p hf hp hkind)
      registered := fun k hk => hother k (h.registered k hk) }

/-- In a fit store there is no struct left that nobody has looked at, so no problem is fresh. -/
private theorem Fit.located {d : Diagnostic} (h : s.Fit known pending) (hd : P d.span ∨ d ∈ s.recorded ∨ s.Fresh d s') :
    known d ∨ P d.span := by
  rcases hd with hspan | hrecorded | ⟨id, decl, he, hregistered, -⟩
  · exact .inr hspan
  · exact .inl (h.recorded d hrecorded)
  · rw [h.structs id decl he] at hregistered
    cases hregistered

/-- Types that are resolved leave a store fit, but for the problem that they are refused with. -/
private theorem Fit.retyped {new : Diagnostic → Prop} (h : s.Fit known pending) (hs' : s.Retyped new s') :
    s'.Fit (fun d => known d ∨ new d) pending where
  linked := hs'.linked h.linked
  structs id decl he := by
    obtain ⟨state₀, he₀, hunresolved, -⟩ := hs'.before id decl _ he
    obtain rfl := hunresolved rfl
    rw [hs'.structs]
    exact h.structs id decl he₀
  recorded d hd := (hs'.mem_recorded hd).imp_left (h.recorded d)
  functions fr f p hf hp hkind := by
    rw [frame?, hs'.frames] at hf
    rw [function, hs'.functions]
    exact h.functions fr f p hf hp hkind
  registered key hkey := by
    rw [function, hs'.functions] at hkey ⊢
    exact h.registered key hkey

/-- A function gets another record. -/
private theorem Fit.withFunction (h : s.Fit known pending) {key : Span} {r : FunctionRecord}
    (hfailure : ∀ d, r.failure = some d → known d)
    (hold : (s.function key).Decided → r.Decided) (hpending : ∀ k, pending k → pending' k ∨ k = key ∧ r.Decided)
    (hnew : pending' key ∨ r.Decided) : (s.withFunction key r).Fit known pending' where
  linked := h.linked
  structs := h.structs
  recorded d hd := by
    rcases mem_recorded.mp hd with ⟨id, decl, he⟩ | ⟨k, hk⟩
    · exact h.recorded d (recorded_of_failed (s := s) he)
    · rw [function_withFunction] at hk
      split at hk
      · exact hfailure d hk
      · exact h.recorded d (recorded_of_failure hk)
  functions fr f p hf hp hkind := by
    rw [function_withFunction]
    rcases h.functions fr f p hf hp hkind with hwaiting | hdecided
    · rcases hpending _ hwaiting with hwaiting | ⟨hk, hr⟩
      · exact .inl hwaiting
      · exact .inr (by rwa [if_pos hk])
    · refine .inr ?_
      split
      · rename_i hk
        exact hold (hk ▸ hdecided)
      · exact hdecided
  registered k hk := by
    rw [function_withFunction] at hk ⊢
    split at hk <;> rename_i hkey
    · rwa [if_pos hkey, hkey]
    · rw [if_neg hkey]
      exact (h.registered k hk).imp_left fun hwaiting => (hpending k hwaiting).resolve_right fun hself => hkey hself.1

private theorem Fit.addFrame (h : s.Fit known pending) (outer : List FrameId) :
    (s.addFrame outer).Fit known pending where
  linked := h.linked
  structs := h.structs
  recorded := h.recorded
  functions fr f p hf hp hkind := by
    rw [frame?_addFrame] at hf
    split at hf
    · cases hf
      cases hp
    · exact h.functions fr f p hf hp hkind
  registered := h.registered

private theorem Fit.addVariable (h : s.Fit known pending) {fr : FrameId} {f : Frame}
    (hf : s.frame? fr = some f) {v : Variable}
    (hpending : ∀ k, pending k → pending' k) (hv : v.kind.isFunction = true → pending' v.span) :
    (s.addVariable fr f v).Fit known pending' where
  linked := h.linked
  structs := h.structs
  recorded := h.recorded
  functions g f' p hf' hp hkind := by
    have hold : ∀ {g f'}, s.frame? g = some f' → p ∈ f'.values → pending' p.2.span ∨ (s.function p.2.span).Decided :=
      fun hf' hp => (h.functions _ _ p hf' hp hkind).imp_left (hpending _)
    rw [frame?_addVariable hf] at hf'
    split at hf'
    · cases hf'
      rcases List.mem_append.mp hp with hp | hp
      · exact hold hf hp
      · obtain rfl := List.mem_singleton.mp hp
        exact .inl (hv hkind)
    · exact hold hf' hp
  registered key hkey := (h.registered key hkey).imp_left (hpending key)

end Store

/-! ### Names and functions -/

namespace Action

variable {α β : Type} {known : Diagnostic → Prop} {pending pending' : Span → Prop} {P : Span → Prop} {Q : α → Prop}
  {Q' : β → Prop} {a : Action α} {f : α → Action β} {fr : FrameId}

/-- An action keeps a store fit, and gives a result such that `Q`; a problem that it is refused with is caught. -/
def Minds (known : Diagnostic → Prop) (P : Span → Prop) (pending pending' : Span → Prop) (Q : α → Prop)
    (a : Action α) : Prop :=
  Triple (·.Fit known pending) a (fun x s => s.Fit known pending' ∧ Q x) (Store.Caught known P)

private theorem Minds.bind {pending'' : Span → Prop} (h : Minds known P pending pending' Q a)
    (hf : ∀ x, Q x → Minds known P pending' pending'' Q' (f x)) : Minds known P pending pending'' Q' (a >>= f) :=
  Triple.bind h fun x => triple_and fun hx => hf x hx

private theorem Locates.minds (h : Locates P Q a) : Minds known P (fun _ => False) (fun _ => False) Q a := by
  intro s hs
  have hend := h s hs.linked s (.refl s)
  rcases hrun : a.run.run s with ⟨(d | g) | x, s'⟩ <;> rw [hrun] at hend
  · exact ⟨hs.located hend.2, hs.retyped hend.1⟩
  · trivial
  · exact ⟨(hs.retyped hend.1).mono (fun _ hd => hd.elim id False.elim) fun _ => id, hend.2⟩

private theorem minds_pure {x : α} (h : Q x) : Minds known P pending pending Q (pure x) := fun _ hs => ⟨hs, h⟩

private theorem get_of_no_frame {s : Store} (hf : s.frame? fr = none) : s.frames.get fr = .error .outOfRange := by
  unfold Frames.get itemAt
  rw [show s.frames.frames[fr]? = none from hf]

theorem run_nest_none {s : Store} (hf : s.frame? fr = none) :
    (Action.nest fr).run.run s = (.error (.fault .outOfRange), s) := by
  change (lift (s.frames.nest fr) >>= fun p =>
    (do set { s with frames := p.2 }; return p.1 : Action FrameId)).run.run s = _
  rw [Frames.nest, get_of_no_frame hf]
  rfl

private theorem minds_nest : Minds known P pending pending (fun _ => True) (Action.nest fr) := by
  intro s hs
  cases hf : s.frame? fr with
  | none =>
    rw [run_nest_none hf]
    trivial
  | some f =>
    rw [run_nest hf]
    exact ⟨hs.addFrame _, trivial⟩

/-- A name that is declared stands where the name is taken. -/
private theorem triple_declare {v : Variable} (hpending : ∀ k, pending k → pending' k)
    (hv : v.kind.isFunction = true → pending' v.span) :
    Triple (·.Fit known pending) (declare fr v) (fun _ s => s.Fit known pending')
      fun d s => s.Fit known pending ∧ d.span = v.span := by
  intro s hs
  cases hf : s.frame? fr with
  | some f =>
    rw [run_declare hf]
    cases f.has v.name with
    | true => exact ⟨hs, rfl⟩
    | false => exact hs.addVariable hf hpending hv
  | none =>
    have hrun : (declare fr v).run.run s = (.error (.fault .outOfRange), s) := by
      change (liftStop (s.frames.declare fr v) >>= fun frames => (set { s with frames } : Action Unit)).run.run s = _
      rw [Frames.declare, get_of_no_frame hf]
      rfl
    rw [hrun]
    trivial

private theorem minds_declare {v : Variable} (hv : v.Lies P) :
    Minds known P (fun _ => False) (fun _ => False) (fun _ => True) (declare fr v) :=
  Triple.mono (triple_declare (fun _ => id) fun hkind => by rw [hv.plain] at hkind; cases hkind) (fun _ h => h)
    (fun _ _ h => ⟨h, trivial⟩) fun d s h => h.1.caught (.inr (h.2 ▸ hv.span))

/-- The type of a function is resolved, and a problem with it lies in its declared types. -/
theorem triple_signature {key : Span} {declared : Prototype} (hdeclared : ∀ m ∈ declared.mentions, P m.span) :
    Triple (·.Fit known pending) (resolveSignature fr key declared)
      (fun _ s => s.Fit known fun k => pending k ∧ k ≠ key)
      fun d s => (known d ∨ P d.span) ∧ s.Fit (fun x => known x ∨ x = d) fun k => pending k ∧ k ≠ key := by
  refine triple_get fun s hs => ?_
  dsimp only
  cases hsignature : (s.function key).signature with
  | some sig =>
    rintro _ rfl
    exact hs.decided (.inl (by rw [hsignature]; rfl))
  | none =>
    cases hfailure : (s.function key).failure with
    | some why =>
      rintro _ rfl
      have hfit := hs.decided (.inr (by rw [hfailure]; rfl))
      exact ⟨.inl (hs.recorded why (Store.recorded_of_failure hfailure)), hfit.mono (fun _ => .inl) fun _ => id⟩
    | none =>
      have hprototype : Triple (· = s) (resolvePrototype fr declared) _ _ :=
        (locates_resolvePrototype hdeclared s hs.linked).start (.refl s)
      have hpending :
          ∀ {r : FunctionRecord}, r.Decided → ∀ k, pending k → (pending k ∧ k ≠ key) ∨ k = key ∧ r.Decided :=
        fun hr k hk => by
          by_cases hkey : k = key
          · exact .inr ⟨hkey, hr⟩
          · exact .inl ⟨hk, hkey⟩
      refine (triple_outcome hprototype).bind fun result => ?_
      cases result with
      | ok sig =>
        refine Triple.bind (Q := fun _ s => s.Fit known fun k => pending k ∧ k ≠ key) ?_ fun _ _ h => h
        rintro s' ⟨hs', -⟩
        have hfit : s'.Fit known pending := (hs.retyped hs').mono (fun _ hd => hd.elim id False.elim) fun _ => id
        exact hfit.withFunction (fun d hd => hfit.recorded d (Store.recorded_of_failure hd)) (fun _ => .inl rfl)
          (hpending (.inl rfl)) (.inr (.inl rfl))
      | error stop =>
        cases stop with
        | fault g => exact fun _ _ => trivial
        | refused why =>
          refine Triple.bind (Q := fun _ s => (known why ∨ P why.span) ∧
            s.Fit (fun x => known x ∨ x = why) fun k => pending k ∧ k ≠ key) ?_ fun _ _ h => h
          rintro s' ⟨hs', hwhy⟩
          refine ⟨hs.located hwhy, (hs.retyped hs').withFunction ?_ (fun _ => .inr rfl)
            (hpending (.inr rfl)) (.inr (.inr rfl))⟩
          exact fun d hd => .inr (Option.some.inj hd).symm

private theorem minds_signature {key : Span} {declared : Prototype} (hdeclared : ∀ m ∈ declared.mentions, P m.span) :
    Minds known P (· = key) (fun _ => False) (fun _ => True) (resolveSignature fr key declared) :=
  Triple.mono (triple_signature hdeclared) (fun _ h => h)
    (fun _ _ h => ⟨h.mono (fun _ => id) fun _ hk => hk.2 hk.1, trivial⟩)
    fun _ _ h => ⟨h.1, h.2.mono (fun _ => id) fun _ hk => hk.2 hk.1⟩

/-- What a name means stands in a frame. -/
theorem exists_of_lookup {s : Store} {name : String} {v : Variable} (h : s.frames.lookup fr name = .ok (some v)) :
    ∃ g f p, s.frame? g = some f ∧ p ∈ f.values ∧ p.2 = v := by
  unfold Frames.lookup Frames.search at h
  cases hchain : s.frames.chain fr with
  | error g =>
    rw [hchain] at h
    cases h
  | ok chain =>
    rw [hchain, ok_bind] at h
    obtain ⟨g, f, hf, hfind⟩ := exists_of_searchIn h
    exact ⟨g, f, (name, v), hf, Store.mem_of_lookup hfind, rfl⟩

/-- The type of a function that is decided is there, or the problem with it is on record. -/
private theorem triple_decided {s : Store} {v : Variable} (hs : s.Fit known fun _ => False)
    (hv : v.kind.isFunction = true → (s.function v.span).Decided) :
    Triple (· = s) (resolveVariable v) (fun _ s' => s' = s) (Store.Caught known P) := by
  refine triple_get fun s' hs' => ?_
  subst hs'
  split
  · rename_i declared hkind _
    have hdecided := hv (by rw [hkind]; rfl)
    refine Triple.bind (Q := fun _ s => s = s') (triple_get fun s₁ hs₁ => ?_) fun _ _ h => h
    subst hs₁
    dsimp only
    cases hsignature : (s₁.function v.span).signature with
    | some sig => exact fun _ h => h
    | none =>
      cases hfailure : (s₁.function v.span).failure with
      | some why =>
        rintro _ rfl
        exact hs.caught (.inl (hs.recorded why (Store.recorded_of_failure hfailure)))
      | none =>
        rcases hdecided with h | h
        · rw [hsignature] at h
          cases h
        · rw [hfailure] at h
          cases h
  · exact fun _ h => h

private theorem minds_identifier {info : Info} {name : String} (hinfo : P info.span) :
    Minds known P (fun _ => False) (fun _ => False) (fun r => P r.2.span) (identifierRule fr info name) := by
  refine triple_get fun s hs => triple_lift.bind fun found => triple_and fun hfound => ?_
  cases found with
  | none =>
    rintro _ rfl
    exact hs.caught (.inr hinfo)
  | some v =>
    obtain ⟨g, f, p, hf, hp, rfl⟩ := exists_of_lookup hfound
    have hdecided : p.2.kind.isFunction = true → (s.function p.2.span).Decided := fun hkind =>
      (hs.functions g f p hf hp hkind).resolve_left id
    refine (triple_decided hs hdecided).bind fun _ => ?_
    refine triple_get fun s' hs' => triple_lift.bind fun t => ?_
    rintro _ ⟨rfl, -⟩
    exact ⟨hs' ▸ hs, hinfo⟩

/-- A nested function gets a name, and its type is asked for next. -/
private theorem minds_enterNested {header : Header} (hheader : header.Lies P) (hexported : header.exported = false) :
    Minds known P (fun _ => False) (· = header.span) (fun _ => True) (enterNested fr header) := by
  have hregister : Minds known P (fun _ => False) (· = header.span) (fun _ => True) (registerFunction fr header) := by
    refine triple_get fun s hs => ?_
    split
    · rintro _ rfl
      exact ⟨hs.mono (fun _ => id) fun _ => False.elim, trivial⟩
    have hdeclare : Triple (· = s) (declare fr header.binding) (fun _ s => s.Fit known (· = header.span))
        (Store.Caught known P) := by
      have hname : Triple (·.Fit known fun _ => False) (declare fr header.binding)
          (fun _ s => s.Fit known (· = header.span)) _ := triple_declare (fun _ => False.elim) fun _ => rfl
      exact hname.mono (fun _ h => h ▸ hs) (fun _ _ h => h) fun d s h => h.1.caught (.inr (h.2 ▸ hheader.name))
    refine hdeclare.bind fun _ => ?_
    rw [hexported]
    refine Triple.bind (Q := fun _ s => s.Fit known (· = header.span)) ?_ fun _ _ h => ⟨h, trivial⟩
    exact fun s' hs' =>
      hs'.withFunction (fun d hd => hs'.recorded d (Store.recorded_of_failure hd)) id (fun _ => .inl) (.inl rfl)
  refine hregister.bind fun _ _ => ?_
  intro s hs
  cases hf : s.frame? FrameId.module with
  | none =>
    rw [run_bind, run_nest_none hf]
    trivial
  | some f =>
    -- nothing is declared in a new frame, so the name is not taken there
    have hown : (s.addFrame (FrameId.module :: f.outer)).frame? s.frames.size =
        some { outer := FrameId.module :: f.outer } := by
      rw [Store.frame?_addFrame, if_pos rfl]
    rw [run_bind, run_nest hf]
    dsimp only
    rw [run_bind, run_declare hown]
    exact ⟨(hs.addFrame _).addVariable hown (fun _ => id) fun _ => rfl, trivial⟩

private theorem minds_enterFunction {header : Header} (hheader : header.Lies P) :
    Minds known P (· = header.span) (fun _ => False) (fun _ => True) (enterFunction fr header) := by
  refine (minds_signature hheader.types).bind fun sig _ => ?_
  refine (locates_fromTypes (P := P)).minds.bind fun entry _ => ?_
  cases entry.function? with
  | none => exact fun _ _ => trivial
  | some f => exact minds_nest.bind fun _ _ => minds_pure trivial

end Action

/-! ### Walks -/

/-- The store of a walk is fit; if the walk has ended with a problem, then the problem is caught. -/
def CheckState.Fit (known : Diagnostic → Prop) (P : Span → Prop) (pending : Span → Prop) (st : CheckState) : Prop :=
  match st.stop with
  | none => st.store.Fit known pending
  | some (.refused d) => st.store.Caught known P d
  | some (.fault _) => True

namespace Check

variable {α β : Type} {known : Diagnostic → Prop} {pending pending' : Span → Prop} {P : Span → Prop} {Q : α → Prop}
  {R : β → Prop} {a : Check α} {f : α → Check β} {c : Context} {fr : FrameId} {info : Info} {st : CheckState}

/-- A walk makes its store fit, and gives a result such that `Q`. -/
def MindsFrom (known : Diagnostic → Prop) (P : Span → Prop) (pending : Span → Prop)
    (Q : α → Prop) (a : Check α) : Prop :=
  ∀ st : CheckState, st.Fit known P pending → (a.run st).2.Fit known P (fun _ => False) ∧ Q (a.run st).1

/-- A walk keeps its store fit, and gives a result such that `Q`. -/
abbrev Minds (known : Diagnostic → Prop) (P : Span → Prop) (Q : α → Prop) (a : Check α) : Prop :=
  MindsFrom known P (fun _ => False) Q a

private theorem minds_pure {x : α} (h : Q x) : Minds known P Q (pure x) := fun _ hst => ⟨hst, h⟩

private theorem MindsFrom.bind (h : MindsFrom known P pending Q a) (hf : ∀ x, Q x → Minds known P R (f x)) :
    MindsFrom known P pending R (a >>= f) := by
  intro st hst
  obtain ⟨hst', hQ⟩ := h st hst
  exact hf _ hQ _ hst'

private theorem minds_get {f : CheckState → Check β} (h : ∀ st, Minds known P R (f st)) : Minds known P R (get >>= f) :=
  fun st hst => h st st hst

/-- The loops around do not matter. -/
private theorem minds_loops {change : CheckState → List Bool} :
    Minds known P (fun _ => True) (modify fun st => { st with loops := change st } : Check PUnit) :=
  fun _ hst => ⟨hst, trivial⟩

private theorem minds_exitLoop : Minds known P (fun _ => True) exitLoop := fun _ hst => ⟨hst, trivial⟩

/-- A part that is left out if the walk has ended, or for another reason. -/
private theorem minds_unless {x : α} {skip : Bool → Bool} (hx : Q x) (h : ∀ b, skip b = false → Minds known P Q a) :
    Minds known P Q (do if skip (← stopped) then return x else a) := by
  refine minds_get fun st => ?_
  cases hskip : skip st.stop.isSome with
  | true => exact minds_pure hx
  | false => exact h _ hskip

/-- After an action that gave a result its pending functions are left; after a refusal there are none. -/
private theorem minds_then {b : Action α} {f : Option α → Check β} (h : Action.Minds known P pending pending' Q b)
    (hnone : Minds known P R (f none)) (hsome : ∀ x, Q x → MindsFrom known P pending' R (f (some x))) :
    MindsFrom known P pending R (attempt b >>= f) := by
  rintro ⟨store, loops, stop⟩ hst
  cases stop with
  | some why =>
    have hrun : (attempt b >>= f).run ⟨store, loops, some why⟩ = (f none).run ⟨store, loops, some why⟩ := by
      change (f ((attempt b).run ⟨store, loops, some why⟩).1).run ((attempt b).run ⟨store, loops, some why⟩).2 = _
      rw [run_attempt_ended rfl]
    rw [hrun]
    refine hnone _ ?_
    cases why <;> exact hst
  | none =>
    have hend := h store hst
    have hrun : (attempt b >>= f).run ⟨store, loops, none⟩ =
        (f ((attempt b).run ⟨store, loops, none⟩).1).run ((attempt b).run ⟨store, loops, none⟩).2 := rfl
    rw [hrun, run_attempt rfl]
    dsimp only
    rcases hresult : b.run.run store with ⟨(d | g) | x, s'⟩ <;> rw [hresult] at hend
    · exact hnone _ hend
    · exact hnone _ trivial
    · exact hsome x hend.2 _ hend.1

private theorem minds_attempt {b : Action α} (h : Action.Minds known P pending (fun _ => False) Q b) :
    MindsFrom known P pending (fun o => ∀ x ∈ o, Q x) (attempt b) := by
  have hthen : MindsFrom known P pending (fun o => ∀ x ∈ o, Q x) (attempt b >>= pure) :=
    minds_then h (minds_pure (by simp)) fun x hx => minds_pure fun y hy => Option.some.inj hy ▸ hx
  exact hthen

private theorem minds_demand {b : Action Unit} (h : Locates P (fun _ => True) b) :
    Minds known P (fun _ => True) (demand b) :=
  (minds_attempt h.minds).bind fun _ _ => minds_pure trivial

private theorem minds_conclude {rule : Action Info} (hinfo : P info.span) (h : Locates P (fun j => P j.span) rule) :
    Minds known P (fun j => P j.span) (conclude info rule) := by
  refine (minds_attempt (h.bind fun j hj => locates_settle hj).minds).bind fun found hfound => minds_pure ?_
  cases found with
  | none => exact hinfo
  | some j => exact hfound j rfl

/-- A node gets what its rule says about it. -/
private theorem minds_node {make : Info → α} {rule : Action Info} (hinfo : P info.span)
    (h : Locates P (fun j => P j.span) rule)
    (hmake : ∀ j : Info, P j.span → Q (make j)) : Minds known P Q (do return make (← conclude info rule)) :=
  (minds_conclude hinfo h).bind fun j hj => minds_pure (hmake j hj)

private theorem minds_bindParams {ps : List Param} {ts : List TypeId}
    (hps : ∀ p ∈ ps, p.binding.Lies P ∧ p.declared.Lies P) :
    Minds known P (fun qs => ∀ q ∈ qs, q.binding.Lies P ∧ q.declared.Lies P) (bindParams fr ps ts) := by
  induction ps generalizing ts with
  | nil =>
    unfold bindParams
    exact minds_pure hps
  | cons p rest ih =>
    have hrest : ∀ q ∈ rest, q.binding.Lies P ∧ q.declared.Lies P := fun q hq => hps q (List.mem_cons_of_mem _ hq)
    have hp := hps p List.mem_cons_self
    cases ts with
    | nil => exact (minds_demand locates_fail).bind fun _ _ => minds_pure hps
    | cons t ts =>
      unfold bindParams
      refine minds_unless hps fun _ _ => ?_
      have hbinding : Variable.Lies P { p.binding with type := .borrowed t } := ⟨hp.1.span, hp.1.plain⟩
      have hdeclare : Minds known P (fun _ => True) (demand (declare fr { p.binding with type := .borrowed t })) :=
        (minds_attempt (minds_declare hbinding)).bind fun _ _ => minds_pure trivial
      refine hdeclare.bind fun _ _ => (ih hrest).bind fun qs hqs => minds_pure ?_
      exact List.forall_mem_cons.mpr ⟨⟨hbinding, hp.2⟩, hqs⟩

/-- What is returned about a function stands where the function does, and is exported if the function is. -/
structure FunctionLies (P : Span → Prop) (header : Header) (r : Info × Header × Block Expr) : Prop where
  info : P r.1.span
  exported : r.2.1.exported = header.exported
  header : r.2.1.Lies P
  body : (Expr.block r.2.2).Lies P

/-- The check of a function, whose type is asked for first of all. -/
theorem minds_functionWith {options : Options} {header : Header} {body : Block Expr}
    {walk : Context → FrameId → Check (Block Expr)} (huntyped : info.type = none) (hinfo : P info.span)
    (hheader : header.Lies P) (hbody : (Expr.block body).Lies P)
    (hwalk : ∀ c fr, Minds known P (fun b => (Expr.block b).Lies P) (walk c fr)) :
    MindsFrom known P (· = header.span) (FunctionLies P header) (functionWith options fr info header body walk) := by
  unfold functionWith
  rw [huntyped]
  refine MindsFrom.bind (minds_attempt (minds_enterFunction hheader)) fun entry _ => ?_
  cases entry with
  | none => exact minds_pure ⟨hinfo, rfl, hheader, hbody⟩
  | some entry =>
    refine (minds_bindParams hheader.params).bind fun params hparams => minds_get fun st => ?_
    refine minds_loops.bind fun _ _ => (hwalk _ _).bind fun body hbody => minds_loops.bind fun _ _ => ?_
    have hrule : Locates P (fun j => P j.span) (do
        expectBlock body entry.returns
        return info.resolve entry.signature false false) :=
      (locates_expectBlock hbody).bind fun _ _ => locates_pure hinfo
    exact minds_node hinfo hrule fun j hj => ⟨hj, rfl, ⟨hheader.name, hparams, hheader.returns⟩, hbody⟩

/-! ### Expressions -/

/-- The walk through an expression keeps a store fit. -/
abbrev MindsExpr (known : Diagnostic → Prop) (P : Span → Prop) (e : Expr) : Prop :=
  ∀ c fr, Minds known P (Expr.Lies P) (Check.expr c fr e)

private theorem minds_option {e : Option Expr} (h : ∀ x ∈ e, MindsExpr known P x) :
    Minds known P (fun e => ∀ x ∈ e, x.Lies P) (Check.option c fr e) := by
  cases e with
  | none =>
    rw [Check.option]
    exact minds_pure (by simp)
  | some e =>
    rw [Check.option]
    exact (h e rfl c fr).bind fun e he => minds_pure fun x hx => Option.some.inj hx ▸ he

private theorem minds_exprs {es : List Expr} (h : ∀ e ∈ es, MindsExpr known P e) :
    Minds known P (fun es => ∀ e ∈ es, e.Lies P) (Check.exprs c fr es) := by
  induction es with
  | nil =>
    rw [Check.exprs]
    exact minds_pure (by simp)
  | cons e rest ih =>
    rw [Check.exprs]
    refine (h e List.mem_cons_self c fr).bind fun e he => ?_
    refine (ih fun e he => h e (List.mem_cons_of_mem _ he)).bind fun rest hrest => minds_pure ?_
    exact List.forall_mem_cons.mpr ⟨he, hrest⟩

private theorem minds_fields {inits : List (FieldInit Expr)} {owner : String} {declared : List (String × TypeId)}
    {seen : List String} (hnames : ∀ f ∈ inits, P f.span) (hlies : ∀ f ∈ inits, f.value.Lies P)
    (h : ∀ f ∈ inits, MindsExpr known P f.value) :
    Minds known P (fun inits => ∀ f ∈ inits, P f.span ∧ f.value.Lies P)
      (Check.fields c fr owner declared seen inits) := by
  induction inits generalizing seen with
  | nil =>
    rw [Check.fields]
    exact minds_pure (by simp)
  | cons init rest ih =>
    obtain ⟨name, span, value⟩ := init
    have hspan : P span := hnames ⟨name, span, value⟩ List.mem_cons_self
    rw [Check.fields]
    refine (minds_attempt (locates_field hspan).minds).bind fun type _ => ?_
    cases type with
    | none => exact minds_pure fun f hf => ⟨hnames f hf, hlies f hf⟩
    | some type =>
      refine (h ⟨name, span, value⟩ List.mem_cons_self c fr).bind fun value hvalue => ?_
      refine (minds_demand (locates_expectExpr hvalue)).bind fun _ _ => ?_
      refine (ih (fun f hf => hnames f (List.mem_cons_of_mem _ hf)) (fun f hf => hlies f (List.mem_cons_of_mem _ hf))
        fun f hf => h f (List.mem_cons_of_mem _ hf)).bind fun rest hrest => minds_pure ?_
      exact List.forall_mem_cons.mpr ⟨⟨hspan, hvalue⟩, hrest⟩

/-- The variable that a name gets is the one in its holder. -/
private theorem value_map {h : Holder Variable} {v x : Variable} (hx : (h.map fun _ => v).value? = some x) : v = x := by
  cases h <;> cases hx <;> rfl

private theorem take_map {h : Holder Variable} {v : Variable} {r : Variable × Holder Variable}
    (hr : (h.map fun _ => v).take = .ok r) : v = r.1 := by
  cases h <;> cases hr
  rfl

/-- A block is an expression that is walked through like the block. -/
private theorem run_blockExpr (b : Block Expr) (st : CheckState) : (Check.expr c fr (.block b)).run st =
    (.block ((Check.block c fr b).run st).1, ((Check.block c fr b).run st).2) := by
  obtain ⟨info, frame, stmts, tail⟩ := b
  obtain ⟨store, loops, stop⟩ := st
  cases stop with
  | some why =>
    rw [Check.expr, run_ended rfl rfl, Check.block, run_ended rfl rfl]
  | none =>
    cases htype : info.type with
    | none =>
      rw [Check.expr]
      exact run_open rfl (by rw [Bool.false_or]; exact congrArg Option.isSome htype)
    | some t =>
      have hskip : ∀ {α : Type} {x : α} {a : Check α}, (do
          if (← stopped) || info.type.isSome then return x
          a : Check α).run ⟨store, loops, none⟩ = (x, ⟨store, loops, none⟩) := by
        intro α x a
        rw [htype]
        rfl
      have hblock : (Check.block c fr ⟨info, frame, stmts, tail⟩).run ⟨store, loops, none⟩ =
          (⟨info, frame, stmts, tail⟩, ⟨store, loops, none⟩) := by
        rw [Check.block]
        exact hskip
      rw [hblock, Check.expr]
      exact hskip

private theorem minds_blockOf {b : Block Expr} (h : MindsExpr known P (.block b)) :
    Minds known P (fun b => (Expr.block b).Lies P) (Check.block c fr b) := by
  intro st hst
  have hwalk := h c fr st hst
  rw [run_blockExpr] at hwalk
  exact hwalk

private theorem minds_structLiteral {i : Info} {name : String} {inits : List (FieldInit Expr)} (hi : P i.span)
    (hnames : ∀ f ∈ inits, P f.span) (hvalues : ∀ f ∈ inits, f.value.Lies P)
    (ih : ∀ f ∈ inits, MindsExpr known P f.value) : MindsExpr known P (.structLiteral i name inits) := by
  intro c fr
  rw [Check.expr]
  refine minds_unless (.structLiteral hi hnames hvalues) fun _ _ =>
    (minds_attempt (locates_literalStruct hi).minds).bind fun found _ => ?_
  cases found with
  | none => exact minds_pure (.structLiteral hi hnames hvalues)
  | some found =>
    refine (minds_fields hnames hvalues ih).bind fun inits hinits => ?_
    exact minds_node hi (locates_literal hi) fun _ hj =>
      .structLiteral hj (fun f hf => (hinits f hf).1) fun f hf => (hinits f hf).2

private theorem minds_letBinding {i : Info} {binding : Holder Variable} {declared : Option TypeExpr}
    {init : Expr} (hi : P i.span)
    (hv : ∀ x, binding.value? = some x → x.Lies P) (hdeclared : ∀ t ∈ declared, t.Lies P) (hinit : init.Lies P)
    (ih : MindsExpr known P init) : MindsExpr known P (.letBinding i binding declared init) := by
  intro c fr
  rw [Check.expr]
  refine minds_unless (.letBinding hi hv hdeclared hinit) fun _ _ => (ih c fr).bind fun init hinit => ?_
  refine (minds_attempt (locates_let hv (TypeExpr.Lies.optionMentions hdeclared) hinit).minds).bind fun v hv' => ?_
  cases v with
  | none => exact minds_pure (.letBinding hi hv hdeclared hinit)
  | some v =>
    have hlies := hv' v rfl
    have htake :
        Action.Minds known P (fun _ => False) (fun _ => False) (fun r : Variable × Holder Variable => r.1.Lies P)
        (do Action.declare fr v; Action.lift (binding.map fun _ => v).take) :=
      (minds_declare hlies).bind fun _ _ => (locates_lift.imp (fun _ h => h) fun r hr => (take_map hr ▸ hlies)).minds
    refine (minds_attempt htake).bind fun taken htaken => ?_
    cases taken with
    | none => exact minds_pure (.letBinding hi (fun x hx => value_map hx ▸ hlies) hdeclared hinit)
    | some taken =>
      refine minds_node hi (locates_pure hi) fun _ hj => .letBinding hj (fun x hx => ?_) hdeclared hinit
      exact Option.some.inj hx ▸ htaken taken rfl

private theorem minds_blockExpr {i : Info} {frame : Option FrameId} {stmts : List Expr}
    {tail : Option Expr} (hi : P i.span)
    (hstmts : ∀ e ∈ stmts, e.Lies P) (htail : ∀ e ∈ tail, e.Lies P) (ihstmts : ∀ e ∈ stmts, MindsExpr known P e)
    (ihtail : ∀ e ∈ tail, MindsExpr known P e) : MindsExpr known P (.block ⟨i, frame, stmts, tail⟩) := by
  intro c fr
  rw [Check.expr]
  have hself : (Expr.block ⟨i, frame, stmts, tail⟩).Lies P := .block hi hstmts htail
  refine minds_unless hself fun _ _ => MindsFrom.bind (Q := fun b => (Expr.block b).Lies P) ?_ fun _ h => minds_pure h
  rw [Check.block]
  refine minds_unless hself fun _ _ => (minds_attempt minds_nest).bind fun inner _ => ?_
  cases inner with
  | none => exact minds_pure hself
  | some inner =>
    refine (minds_exprs ihstmts).bind fun stmts hstmts => (minds_option ihtail).bind fun tail htail => ?_
    exact minds_node hi (locates_blockRule hi) fun _ hj => .block hj hstmts htail

private theorem minds_leaveFunction {i : Info} {result : Option Expr} (hi : P i.span) (hresult : ∀ e ∈ result, e.Lies P)
    (ih : ∀ e ∈ result, MindsExpr known P e) : MindsExpr known P (.leaveFunction i result) := by
  intro c fr
  rw [Check.expr]
  refine minds_unless (.leaveFunction hi hresult) fun _ _ => ?_
  have hnode : ∀ {result : Option Expr}, (∀ e ∈ result, e.Lies P) → Minds known P (Expr.Lies P) (do
      return .leaveFunction (← conclude i (Action.returnRule i c.returns result)) result) := fun hresult =>
    minds_node hi (locates_return hi hresult) fun _ hj => .leaveFunction hj hresult
  dsimp only
  split
  · exact (minds_option ih).bind fun _ hresult => hnode hresult
  · exact hnode hresult

private theorem minds_function {i : Info} {header : Header} {body : Block Expr} (hi : P i.span)
    (hexported : header.exported = false)
    (hheader : header.Lies P) (hbody : (Expr.block body).Lies P) (ih : MindsExpr known P (.block body)) :
    MindsExpr known P (.function i header body) := by
  intro c fr
  rw [Check.expr]
  refine minds_unless (.function hi hexported hheader hbody) fun b hskip => ?_
  have huntyped : i.type = none := by
    cases htype : i.type with
    | none => rfl
    | some t => cases (Bool.or_eq_false_iff.mp hskip).2.symm.trans (congrArg Option.isSome htype)
  -- the name of the function is declared before its type is asked for
  refine minds_then (minds_enterNested hheader hexported)
    (minds_pure (.function hi hexported hheader hbody)) fun own _ => ?_
  refine (minds_functionWith huntyped hi hheader hbody fun c fr => minds_blockOf ih).bind fun r hr => ?_
  obtain ⟨info, header, body⟩ := r
  exact minds_pure (.function hr.info (hr.exported.trans hexported) hr.header hr.body)

/-- A walk through a tree whose parts stand at some spans gives such a tree, and keeps its store fit. -/
private theorem minds_expr {e : Expr} (h : e.Lies P) : MindsExpr known P e := by
  intro c fr
  induction h generalizing c fr with
  | integer hi =>
    rw [Check.expr]
    exact minds_unless (.integer hi) fun _ _ => minds_node hi (locates_pure hi) fun _ hj => .integer hj
  | float hi =>
    rw [Check.expr]
    exact minds_unless (.float hi) fun _ _ => minds_node hi (locates_pure hi) fun _ hj => .float hj
  | boolean hi =>
    rw [Check.expr]
    exact minds_unless (.boolean hi) fun _ _ => minds_node hi (locates_pure hi) fun _ hj => .boolean hj
  | identifier hi =>
    rw [Check.expr]
    refine minds_unless (.identifier hi) fun _ _ => (minds_attempt (minds_identifier hi)).bind fun found hfound => ?_
    cases found with
    | none => exact minds_pure (.identifier hi)
    | some found => exact minds_node hi (locates_pure (hfound found rfl)) fun _ hj => .identifier hj
  | member hi hbase hname ihbase =>
    rw [Check.expr]
    refine minds_unless (.member hi hbase hname) fun _ _ => (ihbase c fr).bind fun base hbase => ?_
    refine (minds_attempt (locates_member hi hbase hname).minds).bind fun found hfound => ?_
    cases found with
    | none => exact minds_pure (.member hi hbase hname)
    | some found => exact minds_node hi (locates_pure (hfound found rfl)) fun _ hj => .member hj hbase hname
  | call hi hcallee hargs ihcallee ihargs =>
    rw [Check.expr]
    refine minds_unless (.call hi hcallee hargs) fun _ _ => (ihcallee c fr).bind fun callee hcallee => ?_
    refine (minds_exprs fun e he => ihargs e he).bind fun args hargs => ?_
    exact minds_node hi (locates_call hi hcallee hargs) fun _ hj => .call hj hcallee hargs
  | builtinCall hi hargs ihargs =>
    rw [Check.expr]
    refine minds_unless (.builtinCall hi hargs) fun _ _ =>
      (minds_attempt (locates_findBuiltin hi).minds).bind fun b _ => ?_
    cases b with
    | none => exact minds_pure (.builtinCall hi hargs)
    | some b =>
      refine (minds_exprs fun e he => ihargs e he).bind fun args hargs => ?_
      exact minds_node hi (locates_builtin hi hargs) fun _ hj => .builtinCall hj hargs
  | unary hi hoperand ih =>
    rw [Check.expr]
    refine minds_unless (.unary hi hoperand) fun _ _ => (ih c fr).bind fun operand hoperand => ?_
    exact minds_node hi (locates_unary hi hoperand) fun _ hj => .unary hj hoperand
  | binary hi hlhs hrhs ihlhs ihrhs =>
    rw [Check.expr]
    refine minds_unless (.binary hi hlhs hrhs) fun _ _ => (ihlhs c fr).bind fun lhs hlhs => ?_
    refine (ihrhs c fr).bind fun rhs hrhs => ?_
    exact minds_node hi (locates_binary hi hlhs hrhs) fun _ hj => .binary hj hlhs hrhs
  | assignment hi htarget hsource ihtarget ihsource =>
    rw [Check.expr]
    refine minds_unless (.assignment hi htarget hsource) fun _ _ => (ihtarget c fr).bind fun target htarget => ?_
    refine (ihsource c fr).bind fun source hsource => ?_
    exact minds_node hi (locates_assignment hi htarget hsource) fun _ hj => .assignment hj htarget hsource
  | structLiteral hi hnames hvalues ih => exact minds_structLiteral hi hnames hvalues ih c fr
  | letBinding hi hv hdeclared hinit ih => exact minds_letBinding hi hv hdeclared hinit ih c fr
  | block hi hstmts htail ihstmts ihtail => exact minds_blockExpr hi hstmts htail ihstmts ihtail c fr
  | ifElse hi hcond hthen hother ihcond ihthen ihother =>
    rw [Check.expr]
    refine minds_unless (.ifElse hi hcond hthen hother) fun _ _ => (ihcond c fr).bind fun cond hcond => ?_
    refine (minds_demand (locates_expectExpr hcond)).bind fun _ _ => ?_
    refine (minds_blockOf ihthen).bind fun thenBlock hthen =>
      (minds_option fun e he => ihother e he).bind fun other hother => ?_
    exact minds_node hi (locates_if hi hthen hother) fun _ hj => .ifElse hj hcond hthen hother
  | whileLoop hi hcond hbody ihcond ihbody =>
    rw [Check.expr]
    refine minds_unless (.whileLoop hi hcond hbody) fun _ _ => (ihcond c fr).bind fun cond hcond => ?_
    refine (minds_demand (locates_expectExpr hcond)).bind fun _ _ => minds_loops.bind fun _ _ => ?_
    refine (minds_blockOf ihbody).bind fun body hbody => minds_exitLoop.bind fun _ _ => ?_
    exact minds_node hi (locates_loop hi hbody) fun _ hj => .whileLoop hj hcond hbody
  | endlessLoop hi hbody ihbody =>
    rw [Check.expr]
    refine minds_unless (.endlessLoop hi hbody) fun _ _ => minds_loops.bind fun _ _ => ?_
    refine (minds_blockOf ihbody).bind fun body hbody => minds_exitLoop.bind fun _ _ => ?_
    exact minds_node hi (locates_loop hi hbody) fun _ hj => .endlessLoop hj hbody
  | leaveLoop hi =>
    rw [Check.expr]
    refine minds_unless (.leaveLoop hi) fun _ _ => minds_get fun st => minds_loops.bind fun _ _ => ?_
    exact minds_node hi (locates_jump hi) fun _ hj => .leaveLoop hj
  | nextRound hi =>
    rw [Check.expr]
    refine minds_unless (.nextRound hi) fun _ _ => minds_get fun st => ?_
    exact minds_node hi (locates_jump hi) fun _ hj => .nextRound hj
  | leaveFunction hi hresult ih => exact minds_leaveFunction hi hresult ih c fr
  | function hi hexported hheader hbody ih => exact minds_function hi hexported hheader hbody ih c fr

end Check

/-- The check of a function keeps a store fit, up to the problem that ends it. -/
theorem FunctionDecl.check_fit {known : Diagnostic → Prop} {P : Span → Prop} {f : FunctionDecl} {s : Store}
    (options : Options) (fr : FrameId) (hs : s.Fit known fun _ => False) (hlies : f.Lies P P)
    (huntyped : f.info.type = none) :
    (f.check options fr s).2.Fit known P fun _ => False := by
  have hwalk : ∀ c fr, Check.Minds known P (fun b => (Expr.block b).Lies P) (Check.block c fr f.body) := fun _ _ =>
    Check.minds_blockOf (Check.minds_expr hlies.body)
  have hcheck : Check.MindsFrom known P (· = f.header.span) (Check.FunctionLies P f.header)
      (Check.functionWith options fr f.info f.header f.body fun c fr => Check.block c fr f.body) :=
    Check.minds_functionWith huntyped hlies.info hlies.header hlies.body hwalk
  exact (hcheck { store := s } (hs.mono (fun _ => id) fun _ => False.elim)).1

end RainCheck
