import RainCheck.Proofs.Attainable

/-!
# Actions that are done again

An action that has ended with a result or a refusal ends in the same way when it is done again in a later store, and
then it changes nothing (`Repeats`).
* What is read off the types stays the same, up to the state of structs.
* A struct that was used is resolved or has failed, and so is the type of a function.
* Types that were asked for are there already.
-/

namespace RainCheck

namespace Store

variable {s s' : Store} {t u : TypeId}

private theorem GrowsTo.get {e : TypeEntry} (hg : s.GrowsTo s') (h : s.types.get t = .ok e) :
    ∃ e', s'.types.get t = .ok e' ∧ e.Becomes e' := by
  obtain ⟨e', he', hbecomes⟩ := hg.entries t e (entry_of_get h)
  exact ⟨e', get_of_entry he', hbecomes⟩

/-- The text of a type stays the same. -/
theorem GrowsTo.text (hg : s.GrowsTo s') {text : String} (h : s.types.text t = .ok text) : s'.types.text t = .ok text :=
  hg.typesStay.text h

/-- A type that is not that of a struct is found where it was found before. -/
private theorem GrowsTo.intern {e : TypeEntry} {p : TypeEntry → Bool} {id : TypeId} (hg : s.GrowsTo s')
    (hp : ∀ x, p x = true ↔ x = e) (hstruct : e.struct? = none) (h : s.types.entries.findIdx? p = some id) :
    s'.types.entries.findIdx? p = some id := by
  obtain ⟨hlt, hfound, hbefore⟩ := List.findIdx?_eq_some_iff_getElem.mp h
  have hentry : s.typeAt? id = some e := by
    unfold typeAt?
    rw [List.getElem?_eq_getElem hlt, (hp _).mp hfound]
  have hentry' : s'.types.entries[id]? = some e := hg.same hentry hstruct
  obtain ⟨hlt', heq⟩ := List.getElem?_eq_some_iff.mp hentry'
  refine List.findIdx?_eq_some_iff_getElem.mpr ⟨hlt', by rw [heq]; exact (hp e).mpr rfl, fun j hj hpj => ?_⟩
  have hjlt : j < s.types.entries.length := Nat.lt_trans hj hlt
  obtain ⟨x, hx, hbecomes⟩ := hg.entries j _ (List.getElem?_eq_getElem hjlt)
  have hxe : x = e := by
    rw [show s'.typeAt? j = s'.types.entries[j]? from rfl, List.getElem?_eq_getElem (Nat.lt_trans hj hlt')] at hx
    cases hx
    exact (hp _).mp hpj
  -- an entry that becomes something else is that of a struct
  have hsame : s.types.entries[j] = e := by
    subst hxe
    generalize s.types.entries[j] = y at hbecomes
    cases hbecomes with
    | refl => rfl
    | start | finish => cases hstruct
  exact hbefore j hj ((hp _).mpr hsame)

end Store

namespace Action

variable {α β : Type} {Q : Store → Prop} {s s' : Store}

/--
The action `b` does again what `a` has done: in every later store with a property it ends as `a` did, and changes
nothing.
-/
def Repeats (Q : Store → Prop) (s : Store) (a b : Action α) : Prop :=
  ∀ r s', a.run.run s = (r, s') → (∀ f, r ≠ .error (.fault f)) →
    s.GrowsTo s' ∧ ∀ s₂, s'.GrowsTo s₂ → Q s₂ → b.run.run s₂ = (r, s₂)

theorem Repeats.bind {a b : Action α} {f g : α → Action β} (h : Repeats Q s a b)
    (hf : ∀ x s', a.Yields s x s' → Repeats Q s' (f x) (g x)) : Repeats Q s (a >>= f) (b >>= g) := by
  intro r s'' hrun hfault
  rw [run_bind] at hrun
  rcases ha : a.run.run s with ⟨e | x, s'⟩
  · rw [ha] at hrun
    cases hrun
    obtain ⟨hg, hagain⟩ := h (.error e) s'' ha fun f hf => hfault f (by rw [Except.error.inj hf])
    refine ⟨hg, fun s₂ hg₂ hQ => ?_⟩
    rw [run_bind, hagain s₂ hg₂ hQ]
  · rw [ha] at hrun
    obtain ⟨hg, hagain⟩ := h (.ok x) s' ha (by simp)
    obtain ⟨hg', hagain'⟩ := hf x s' ha r s'' hrun hfault
    refine ⟨hg.trans hg', fun s₂ hg₂ hQ => ?_⟩
    rw [run_bind, hagain s₂ (hg'.trans hg₂) hQ]
    exact hagain' s₂ hg₂ hQ

theorem repeats_pure {x : α} : Repeats Q s (pure x) (pure x) := by
  rintro r s' ⟨⟩ -
  exact ⟨.refl s, fun _ _ _ => rfl⟩

private theorem repeats_refuse {span : Span} {cause : Cause} :
    Repeats Q s (refuse span cause : Action α) (refuse span cause) := by
  rintro r s' ⟨⟩ -
  exact ⟨.refl s, fun _ _ _ => rfl⟩

private theorem repeats_refuse_bind {span : Span} {cause : Cause} {f g : α → Action β} :
    Repeats Q s (refuse span cause >>= f) (refuse span cause >>= g) :=
  repeats_refuse.bind fun _ _ hyields => absurd hyields yields_refuse

private theorem repeats_fail {f : Fault} {b : Action α} : Repeats Q s (fail f) b := by
  rintro r s' ⟨⟩ hfault
  exact absurd rfl (hfault f)

private theorem repeats_lift {r : Except Fault α} : Repeats Q s (lift r) (lift r) := by
  cases r with
  | ok x => exact repeats_pure
  | error f => exact repeats_fail

/-- What is read off the store, if it is the same later on. -/
private theorem repeats_get {read read' : Store → Except Fault α} {f g : α → Action β}
    (h : ∀ x, read s = .ok x → (∀ s₂, s.GrowsTo s₂ → Q s₂ → read' s₂ = .ok x) ∧ Repeats Q s (f x) (g x)) :
    Repeats Q s (do f (← lift (read (← get)))) (do g (← lift (read' (← get)))) := by
  intro r s' hrun hfault
  change (lift (read s) >>= f).run.run s = _ at hrun
  cases hread : read s with
  | error e =>
    rw [hread] at hrun
    cases hrun
    exact absurd rfl (hfault e)
  | ok x =>
    rw [hread] at hrun
    obtain ⟨hread', hnext⟩ := h x hread
    obtain ⟨hg, hagain⟩ := hnext r s' hrun hfault
    refine ⟨hg, fun s₂ hg₂ hQ => ?_⟩
    change (lift (read' s₂) >>= g).run.run s₂ = _
    rw [hread' s₂ (hg.trans hg₂) hQ]
    exact hagain s₂ hg₂ hQ

/-- What is read off the types may change in a way that makes no difference. -/
private theorem repeats_fromTypes {read : Types → Except Fault α} {f g : α → Action β}
    (hread : ∀ s₂ x, s.GrowsTo s₂ → read s.types = .ok x → ∃ y, read s₂.types = .ok y ∧ g y = g x)
    (h : ∀ x, read s.types = .ok x → Repeats Q s (f x) (g x)) :
    Repeats Q s (fromTypes read >>= f) (fromTypes read >>= g) := by
  intro r s' hrun hfault
  change (lift (read s.types) >>= f).run.run s = _ at hrun
  cases hvalue : read s.types with
  | error e =>
    rw [hvalue] at hrun
    cases hrun
    exact absurd rfl (hfault e)
  | ok x =>
    rw [hvalue] at hrun
    obtain ⟨hg, hagain⟩ := h x hvalue r s' hrun hfault
    refine ⟨hg, fun s₂ hg₂ hQ => ?_⟩
    obtain ⟨y, hy, heq⟩ := hread s₂ x (hg.trans hg₂) hvalue
    change (lift (read s₂.types) >>= g).run.run s₂ = _
    rw [hy]
    change (g y).run.run s₂ = _
    rw [heq]
    exact hagain s₂ hg₂ hQ

private theorem repeats_load {t : TypeId} {f g : TypeId → Action β} (h : ∀ u, Repeats Q s (f u) (g u)) :
    Repeats Q s (load t >>= f) (load t >>= g) :=
  repeats_fromTypes (fun _ u hg hu => ⟨u, hg.loads hu, rfl⟩) fun u _ => h u

private theorem repeats_textOf {t : TypeId} {f g : String → Action β} (h : ∀ text, Repeats Q s (f text) (g text)) :
    Repeats Q s (textOf t >>= f) (textOf t >>= g) :=
  repeats_fromTypes (fun _ text hg htext => ⟨text, hg.text htext, rfl⟩) fun text _ => h text

private theorem repeats_typeOf {i : Info} {f g : TypeId → Action β} (h : ∀ t, Repeats Q s (f t) (g t)) :
    Repeats Q s (typeOf i >>= f) (typeOf i >>= g) :=
  repeats_lift.bind fun t s' hyields => by
    rw [yields_lift] at hyields
    exact hyields.2 ▸ h t

private theorem repeats_lift_bind {r : Except Fault α} {f g : α → Action β} (h : ∀ x, Repeats Q s (f x) (g x)) :
    Repeats Q s (lift r >>= f) (lift r >>= g) :=
  repeats_lift.bind fun x s' hyields => by
    rw [yields_lift] at hyields
    exact hyields.2 ▸ h x

/-! ### Rules that look at types -/

theorem repeats_settle {i : Info} : Repeats Q s (settle i) (settle i) :=
  repeats_typeOf fun _ => repeats_fromTypes (fun _ b hg hb => ⟨b, hg.isReference hb, rfl⟩) fun _ _ => repeats_pure

theorem repeats_expectType {blame : Span} {actual : Option TypeId} {expected : TypeId} :
    Repeats Q s (expectType blame actual expected) (expectType blame actual expected) := by
  refine repeats_lift_bind fun t => repeats_fromTypes (fun _ b hg hb => ⟨b, hg.assignable_eq hb, rfl⟩) fun b _ => ?_
  cases b with
  | true => exact repeats_pure
  | false => exact repeats_textOf fun _ => repeats_textOf fun _ => repeats_refuse

private theorem repeats_expectAll {es : List Expr} {ts : List TypeId} :
    Repeats Q s (expectAll es ts) (expectAll es ts) := by
  induction es generalizing ts s with
  | nil => exact repeats_pure
  | cons e es ih =>
    cases ts with
    | nil => exact repeats_fail
    | cons t ts => exact repeats_expectType.bind fun _ _ _ => ih

theorem repeats_callRule {info : Info} {callee : Expr} {args : List Expr} :
    Repeats Q s (callRule info callee args) (callRule info callee args) := by
  refine repeats_typeOf fun t => repeats_fromTypes (fun s₂ e hg he => ?_) fun e _ => ?_
  · obtain ⟨e', he', hbecomes⟩ := hg.get he
    exact ⟨e', he', by cases hbecomes <;> rfl⟩
  · cases e with
    | function params returns =>
      dsimp only [TypeEntry.function?]
      split
      · exact repeats_refuse_bind
      · exact repeats_expectAll.bind fun _ _ _ => repeats_pure
    | _ => exact repeats_textOf fun _ => repeats_refuse

private theorem repeats_negationRule {info : Info} {op : UnaryOp} {operand : Expr} {expected : String}
    {takes : TypeId → Bool} :
    Repeats Q s (negationRule info op operand expected takes) (negationRule info op operand expected takes) := by
  refine repeats_typeOf fun outer => repeats_load fun t => ?_
  split
  · exact repeats_textOf fun _ => repeats_refuse_bind
  · exact repeats_pure

theorem repeats_binaryRule {info : Info} {op : BinaryOp} {lhs rhs : Expr} :
    Repeats Q s (binaryRule info op lhs rhs) (binaryRule info op lhs rhs) := by
  refine repeats_typeOf fun _ => repeats_load fun left => repeats_typeOf fun _ => repeats_load fun right => ?_
  dsimp only
  split
  · exact repeats_textOf fun _ => repeats_refuse_bind
  · split
    · exact repeats_textOf fun _ => repeats_textOf fun _ => repeats_refuse_bind
    · unfold foldOperands
      split
      · exact repeats_lift_bind fun _ => repeats_pure
      · exact repeats_pure

private theorem repeats_expectMutable {target : Expr} : Repeats Q s (expectMutable target) (expectMutable target) := by
  refine repeats_lift_bind fun place => ?_
  cases place with
  | none => exact repeats_pure
  | some place =>
    dsimp only
    split
    · exact repeats_refuse
    · exact repeats_pure

theorem repeats_assignmentRule {info : Info} {target source : Expr} :
    Repeats Q s (assignmentRule info target source) (assignmentRule info target source) := by
  refine repeats_expectMutable.bind fun _ _ _ => repeats_lift_bind fun b => ?_
  split
  · exact repeats_refuse_bind
  · exact repeats_typeOf fun _ => repeats_load fun _ => repeats_expectType.bind fun _ _ _ => repeats_pure

theorem repeats_findBuiltin {info : Info} {name : String} :
    Repeats Q s (findBuiltin info name) (findBuiltin info name) := by
  unfold findBuiltin
  split
  · exact repeats_pure
  · exact repeats_refuse

private theorem repeats_matchSecond {t : TypeId} {args : List Expr} :
    Repeats Q s (matchSecond t args) (matchSecond t args) := by
  unfold matchSecond
  split
  · refine repeats_typeOf fun _ => repeats_load fun other => ?_
    split
    · exact repeats_textOf fun _ => repeats_textOf fun _ => repeats_refuse
    · exact repeats_pure
  · exact repeats_pure

private theorem repeats_expectFeature {options : Options} {info : Info} {b : Builtin} {t : TypeId} :
    Repeats Q s (expectFeature options info b t) (expectFeature options info b t) := by
  unfold expectFeature
  split
  · split
    · exact repeats_refuse
    · exact repeats_pure
  · exact repeats_pure

private theorem repeats_foldArguments {options : Options} {b : Builtin} {args : List Expr} :
    Repeats Q s (foldArguments options b args) (foldArguments options b args) := by
  unfold foldArguments
  split
  · exact repeats_lift
  · exact repeats_pure

theorem repeats_builtinRule {options : Options} {info : Info} {b : Builtin} {args : List Expr} :
    Repeats Q s (builtinRule options info b args) (builtinRule options info b args) := by
  unfold builtinRule
  dsimp only
  split
  · exact repeats_refuse_bind
  · cases args with
    | nil => exact repeats_fail
    | cons first rest =>
      refine repeats_typeOf fun _ => repeats_load fun t => ?_
      split
      · exact repeats_textOf fun _ => repeats_refuse_bind
      · refine repeats_matchSecond.bind fun _ _ _ => repeats_expectFeature.bind fun _ _ _ => ?_
        exact repeats_foldArguments.bind fun _ _ _ => repeats_pure

theorem repeats_fieldRule {owner : String} {declared : List (String × TypeId)} {seen : List String} {name : String}
    {span : Span} :
    Repeats Q s (fieldRule owner declared seen name span) (fieldRule owner declared seen name span) := by
  unfold fieldRule
  split
  · exact repeats_refuse
  · split
    · exact repeats_refuse_bind
    · exact repeats_lift_bind fun _ => repeats_pure

theorem repeats_literalRule {info : Info} {type : TypeId} {owner : String} {declared : List (String × TypeId)}
    {inits : List (FieldInit Expr)} :
    Repeats Q s (literalRule info type owner declared inits) (literalRule info type owner declared inits) := by
  unfold literalRule
  split
  · exact repeats_refuse
  · exact repeats_pure

theorem repeats_blockRule {info : Info} {stmts : List Expr} {tail : Option Expr} :
    Repeats Q s (blockRule info stmts tail) (blockRule info stmts tail) := by
  unfold blockRule
  split
  · exact repeats_typeOf fun _ => repeats_pure
  · exact repeats_pure

theorem repeats_ifRule {info : Info} {thenBlock : Block Expr} {other : Option Expr} :
    Repeats Q s (ifRule info thenBlock other) (ifRule info thenBlock other) := by
  unfold ifRule
  split
  · exact repeats_expectType.bind fun _ _ _ => repeats_pure
  · refine repeats_typeOf fun _ => repeats_typeOf fun _ => ?_
    refine repeats_fromTypes (fun _ b hg hb => ⟨b, hg.assignable_eq hb, rfl⟩) fun b _ => ?_
    split
    · exact repeats_pure
    · refine repeats_fromTypes (fun _ b hg hb => ⟨b, hg.assignable_eq hb, rfl⟩) fun b _ => ?_
      split
      · exact repeats_pure
      · exact repeats_expectType.bind fun _ _ _ => repeats_pure

theorem repeats_jumpRule {info : Info} {keyword : String} {inLoop : Bool} :
    Repeats Q s (jumpRule info keyword inLoop) (jumpRule info keyword inLoop) := by
  unfold jumpRule
  split
  · exact repeats_refuse_bind
  · exact repeats_pure

theorem repeats_returnRule {info : Info} {returns : Option TypeId} {result : Option Expr} :
    Repeats Q s (returnRule info returns result) (returnRule info returns result) := by
  unfold returnRule
  split
  · exact repeats_refuse
  · refine Repeats.bind ?_ fun _ _ _ => repeats_pure
    unfold expectResult
    split
    · split
      · exact repeats_textOf fun _ => repeats_textOf fun _ => repeats_refuse
      · exact repeats_pure
    · exact repeats_expectType

/-! ### Types that are asked for -/

/-- A type that was asked for is found again. -/
private theorem repeats_intern {e : TypeEntry} {p : TypeEntry → Bool} (hp : ∀ x, p x = true ↔ x = e)
    (hstruct : e.struct? = none) :
    Repeats Q s (updateTypes (·.intern p e)) (updateTypes (·.intern p e)) := by
  intro r s' hrun _
  have hfound : s.GrowsTo s' ∧ ∃ id, r = .ok id ∧ s'.types.entries.findIdx? p = some id := by
    cases hfind : s.types.entries.findIdx? p with
    | some id =>
      have hintern : s.types.intern p e = (id, s.types) := by rw [Types.intern, hfind]
      change (Except.ok (s.types.intern p e).1, { s with types := (s.types.intern p e).2 }) = (r, s') at hrun
      rw [hintern] at hrun
      cases hrun
      exact ⟨.refl _, id, rfl, hfind⟩
    | none =>
      have hintern : s.types.intern p e = (s.types.size, (s.addType e).types) := by
        rw [Types.intern, hfind]
        rfl
      change (Except.ok (s.types.intern p e).1, { s with types := (s.types.intern p e).2 }) = (r, s') at hrun
      rw [hintern] at hrun
      cases hrun
      refine ⟨Store.growsTo_addType e, _, rfl, ?_⟩
      simp [Store.addType, Types.size, List.findIdx?_append, hfind, List.findIdx?_cons, (hp e).mpr rfl]
  obtain ⟨hg, id, rfl, hfind⟩ := hfound
  refine ⟨hg, fun s₂ hg₂ _ => ?_⟩
  have hintern : s₂.types.intern p e = (id, s₂.types) := by rw [Types.intern, hg₂.intern hp hstruct hfind]
  change (Except.ok (s₂.types.intern p e).1, { s₂ with types := (s₂.types.intern p e).2 }) = _
  rw [hintern]

theorem repeats_unaryRule {info : Info} {op : UnaryOp} {operand : Expr} :
    Repeats Q s (unaryRule info op operand) (unaryRule info op operand) := by
  cases op with
  | negate | invert => exact repeats_negationRule
  | address =>
    refine repeats_typeOf fun t => repeats_lift_bind fun b => ?_
    split
    · exact repeats_refuse_bind
    · exact (repeats_intern (fun _ => TypeEntry.isReferenceTo_iff) rfl).bind fun _ _ _ => repeats_pure

/-! ### Structs and written types -/

variable {L : Listing}

/-- A struct that was used is settled or has failed, so that nothing is done when it is used again. -/
private theorem repeats_completeWithin {depth k : Nat} {use : Span} {id : TypeId} (hs : s.Sound L) (hidle : s.Idle)
    (hdepth : s.pending < depth) (hid : s.Known id) :
    Repeats Q s (completeWithin depth use id) (completeWithin (k + 1) use id) := by
  intro r s' hrun hfault
  have hends := completes_completeWithin L depth s use id hs hdepth hid fun _ A hA => absurd hA hidle.not_top
  unfold Ends at hends
  rw [hrun] at hends
  rcases r with (d | f) | t
  · obtain ⟨hs', hrefines, -, ⟨decl, hfailed⟩ | ⟨decl, hresolving⟩⟩ := hends
    · refine ⟨hrefines.toGrowsTo, fun s₂ hg₂ _ => ?_⟩
      rw [completeWithin, run_bind, show (fromTypes (·.get id)).run.run s₂ = (.ok _, s₂) from
        (yields_fromTypes.mpr ⟨Store.get_of_entry (hg₂.failed hfailed), rfl⟩)]
      rfl
    · have hmem := (hs.types.resolving id).mpr ⟨decl, hresolving⟩
      rw [show s.types.resolving.items = [] from hidle] at hmem
      cases hmem
  · exact absurd rfl (hfault f)
  · obtain ⟨hs', hrefines, rfl, hsettled⟩ := hends
    refine ⟨hrefines.toGrowsTo, fun s₂ hg₂ _ => ?_⟩
    obtain ⟨⟨e, he, -⟩, hresolved⟩ := hg₂.settled hsettled
    rw [completeWithin, run_bind, show (fromTypes (·.get t)).run.run s₂ = (.ok _, s₂) from
      (yields_fromTypes.mpr ⟨Store.get_of_entry he, rfl⟩)]
    cases e with
    | struct decl state =>
      obtain ⟨fields, rfl⟩ := hresolved decl state he
      rfl
    | _ => rfl

private theorem repeats_depthBound {f g : Nat → Action β}
    (h : ∀ k, Repeats Q s (f (2 * s.types.size + 2)) (g (k + 1))) :
    Repeats Q s (depthBound >>= f) (depthBound >>= g) := by
  intro r s' hrun hfault
  change (f (2 * s.types.size + 2)).run.run s = _ at hrun
  obtain ⟨hg, -⟩ := h 0 r s' hrun hfault
  exact ⟨hg, fun s₂ hg₂ hQ => (h (2 * s₂.types.size + 1) r s' hrun hfault).2 s₂ hg₂ hQ⟩

theorem repeats_complete {use : Span} {id : TypeId} (hs : s.Sound L) (hidle : s.Idle) (hid : s.Known id) :
    Repeats Q s (complete use id) (complete use id) :=
  repeats_depthBound fun _ => repeats_completeWithin hs hidle pending_lt_bound hid

/-- Names of types mean the same in two frames, now and in every later store with a property. -/
def SameTypes (Q : Store → Prop) (s : Store) (fr fr₂ : FrameId) : Prop :=
  ∀ s₂ name, s.GrowsTo s₂ → Q s₂ → s₂.frames.lookupType fr₂ name = s.frames.lookupType fr name

private theorem SameTypes.refine {fr fr₂ : FrameId} (h : SameTypes Q s fr fr₂) (hrefines : s.Refines s') :
    SameTypes Q s' fr fr₂ := by
  intro s₂ name hg hQ
  rw [h s₂ name (hrefines.toGrowsTo.trans hg) hQ, hrefines.frames_eq]

mutual

/-- A written type means the same when it is resolved again. -/
private theorem repeats_typeWith {depth k : Nat} {fr fr₂ : FrameId} {shallow : Bool} {s : Store} (t : TypeExpr)
    (h : Resolvable L depth fr t.mentions (t.uses shallow) s) (hidle : s.Idle) (hsame : SameTypes Q s fr fr₂) :
    Repeats Q s (resolveTypeWith (completeWithin depth) fr shallow t)
      (resolveTypeWith (completeWithin (k + 1)) fr₂ shallow t) := by
  have hc := completes_completeWithin L depth
  match t with
  | .named span name =>
    rw [resolveTypeWith, resolveTypeWith]
    refine repeats_get fun r hr => ⟨fun s₂ hg hQ => ?_, ?_⟩
    · rw [hsame s₂ name hg hQ]
      exact hr
    · cases r with
      | none => exact repeats_refuse
      | some id =>
        obtain ⟨_, hlookup, hknown⟩ := h.sound.frames.lookupType h.frame name
        rw [hr] at hlookup
        cases hlookup
        -- behind a reference the name is enough, by value the type is completed
        cases shallow with
        | true => exact repeats_pure
        | false => exact repeats_completeWithin h.sound hidle h.depth (hknown id rfl)
  | .reference span inner =>
    rw [resolveTypeWith, resolveTypeWith]
    refine (repeats_typeWith inner h hidle hsame).bind fun id s' _ => ?_
    exact repeats_intern (fun _ => TypeEntry.isReferenceTo_iff) rfl
  | .function span params returns =>
    rw [resolveTypeWith, resolveTypeWith]
    refine (repeats_typesWith params h.params hidle hsame).bind fun ids s₁ hyields => ?_
    obtain ⟨hs₁, hext₁, -⟩ := Ends.yielded (resolves_typesWith hc params h.params) hyields
    refine (repeats_returnsWith returns (h.returns hs₁ hext₁) (hext₁.idle hidle) (hsame.refine hext₁)).bind
      fun id s₂ _ => ?_
    exact repeats_intern (fun _ => TypeEntry.isFunctionOf_iff) rfl

private theorem repeats_typesWith {depth k : Nat} {fr fr₂ : FrameId} {s : Store} (ts : List TypeExpr)
    (h : Resolvable L depth fr (TypeExpr.mentionsAll ts) (TypeExpr.usesAll ts) s) (hidle : s.Idle)
    (hsame : SameTypes Q s fr fr₂) :
    Repeats Q s (resolveTypesWith (completeWithin depth) fr ts) (resolveTypesWith (completeWithin (k + 1)) fr₂ ts) := by
  match ts with
  | [] =>
    rw [resolveTypesWith, resolveTypesWith]
    exact repeats_pure
  | t :: rest =>
    rw [resolveTypesWith, resolveTypesWith]
    refine (repeats_typeWith t h.first hidle hsame).bind fun id s₁ hyields => ?_
    obtain ⟨hs₁, hext₁, -⟩ := Ends.yielded (resolves_typeWith (completes_completeWithin L depth) t h.first) hyields
    exact (repeats_typesWith rest (h.rest hs₁ hext₁) (hext₁.idle hidle) (hsame.refine hext₁)).bind
      fun _ _ _ => repeats_pure

private theorem repeats_returnsWith {depth k : Nat} {fr fr₂ : FrameId} {s : Store} (t : Option TypeExpr)
    (h : Resolvable L depth fr (TypeExpr.optionMentions t) (TypeExpr.optionUses t) s) (hidle : s.Idle)
    (hsame : SameTypes Q s fr fr₂) :
    Repeats Q s (resolveReturnsWith (completeWithin depth) fr t)
      (resolveReturnsWith (completeWithin (k + 1)) fr₂ t) := by
  match t with
  | none =>
    rw [resolveReturnsWith, resolveReturnsWith]
    exact repeats_pure
  | some t =>
    rw [resolveReturnsWith, resolveReturnsWith]
    exact repeats_typeWith t h hidle hsame

end

theorem repeats_letRule {fr fr₂ : FrameId} {binding : Holder Variable} {declared : Option TypeExpr} {init : Expr}
    (hs : s.Sound L) (hidle : s.Idle) (hfr : fr < s.frames.size)
    (hdeclared : L.Lists (TypeExpr.optionMentions declared))
    (hsame : SameTypes Q s fr fr₂) :
    Repeats Q s (letRule fr binding declared init) (letRule fr₂ binding declared init) := by
  refine repeats_lift_bind fun v => ?_
  cases declared with
  | none => exact repeats_typeOf fun _ => repeats_pure
  | some t =>
    refine (repeats_depthBound fun _ => repeats_typeWith t
      (resolvable_of_idle hs hidle hfr hdeclared) hidle hsame).bind ?_
    exact fun _ _ _ => repeats_expectType.bind fun _ _ _ => repeats_pure

/-- The fields of a struct that is settled stay the same. -/
private theorem repeats_fieldsOf {id : TypeId} {f g : String × List (String × TypeId) → Action β} (hid : s.Settled id)
    (h : ∀ r, Repeats Q s (f r) (g r)) : Repeats Q s (fieldsOf id >>= f) (fieldsOf id >>= g) := by
  unfold fieldsOf
  simp only [bind_assoc]
  refine repeats_fromTypes (fun s₂ e hg he => ?_) fun e he => ?_
  · obtain ⟨e', he', hbecomes⟩ := hg.get he
    refine ⟨e', he', ?_⟩
    cases hbecomes with
    | refl => rfl
    | start decl state | finish decl state =>
      obtain ⟨fields, hfields⟩ := hid.2 decl _ (Store.entry_of_get he)
      cases hfields
  · cases e with
    | struct decl state => exact h _
    | _ => exact repeats_fail

theorem repeats_literalStruct {fr fr₂ : FrameId} {info : Info} {name : String} (hs : s.Sound L) (hidle : s.Idle)
    (hfr : fr < s.frames.size) (hsame : SameTypes Q s fr fr₂) :
    Repeats Q s (literalStruct fr info name) (literalStruct fr₂ info name) := by
  refine repeats_get fun r hr => ⟨fun s₂ hg hQ => (hsame s₂ name hg hQ).trans hr, ?_⟩
  cases r with
  | none => exact repeats_refuse
  | some id =>
    obtain ⟨_, hlookup, hknown⟩ := hs.frames.lookupType hfr name
    rw [hr] at hlookup
    cases hlookup
    refine repeats_fromTypes (fun s₂ e hg he => ?_) fun e he => ?_
    · obtain ⟨e', he', hbecomes⟩ := hg.get he
      exact ⟨e', he', by cases hbecomes <;> rfl⟩
    · cases e with
      | struct decl state =>
        refine (repeats_complete hs hidle (hknown id rfl)).bind fun _ s' hyields => ?_
        obtain ⟨-, -, -, hsettled⟩ := Ends.yielded (ends_complete hs hidle (hknown id rfl)) hyields
        exact repeats_fieldsOf hsettled fun _ => repeats_pure
      | _ => exact repeats_refuse

theorem repeats_memberRule {info : Info} {base : Expr} {name : String} {nameSpan : Span} {u : TypeId} (hs : s.Sound L)
    (hidle : s.Idle) (hbase : base.info.Typed s u) :
    Repeats Q s (memberRule info base name nameSpan) (memberRule info base name nameSpan) := by
  obtain ⟨w, hw, hknown⟩ := loads_known hs hbase.settled.1
  refine repeats_lift.bind fun outer s₁ houter => ?_
  obtain ⟨houter, rfl⟩ := yields_lift.mp houter
  rw [hbase.type] at houter
  cases houter
  refine repeats_fromTypes (fun _ x hg hx => ⟨x, hg.loads hx, rfl⟩) fun x hx => ?_
  cases hw.symm.trans hx
  refine repeats_fromTypes (fun s₂ e hg he => ?_) fun e he => ?_
  · obtain ⟨e', he', hbecomes⟩ := hg.get he
    exact ⟨e', he', by cases hbecomes <;> rfl⟩
  · cases e with
    | struct decl state =>
      refine (repeats_complete hs hidle hknown).bind fun _ s' hyields => ?_
      obtain ⟨-, -, -, hsettled⟩ := Ends.yielded (ends_complete hs hidle hknown) hyields
      refine repeats_fieldsOf hsettled fun r => ?_
      dsimp only
      split
      · exact repeats_lift_bind fun _ => repeats_pure
      · exact repeats_refuse
    | _ => exact repeats_textOf fun _ => repeats_refuse

/-- The type of a function is resolved once. -/
theorem run_resolveSignature {fr : FrameId} {key : Span} {declared : Prototype} {sig : TypeId}
    (h : (s.function key).signature = some sig) : (resolveSignature fr key declared).run.run s = (.ok sig, s) := by
  unfold resolveSignature
  rw [run_bind]
  rw [show (get : Action Store).run.run s = (.ok s, s) from rfl]
  dsimp only
  rw [h]
  rfl

/-- A function whose type cannot be resolved keeps the reason. -/
theorem run_resolveSignature_failed {fr : FrameId} {key : Span} {declared : Prototype} {why : Diagnostic}
    (hnone : (s.function key).signature = none) (hfailure : (s.function key).failure = some why) :
    (resolveSignature fr key declared).run.run s = (.error (.refused why), s) := by
  unfold resolveSignature
  rw [run_bind]
  rw [show (get : Action Store).run.run s = (.ok s, s) from rfl]
  dsimp only
  rw [hnone, hfailure]
  rfl

theorem repeats_resolveSignature {fr fr₂ : FrameId} {key : Span} {declared : Prototype} (hs : s.Sound L)
    (hidle : s.Idle) (hfr : fr < s.frames.size) (hkey : L.prototype key = declared)
    (hdeclared : L.Lists declared.mentions) (hregistered : (s.function key).variableType.isSome = true) :
    Repeats Q s (resolveSignature fr key declared) (resolveSignature fr₂ key declared) := by
  intro r s' hrun _
  have hends := ends_signature hs hidle hfr hkey hdeclared hregistered
  unfold Ends at hends
  rw [hrun] at hends
  rcases r with (why | f) | sig
  · obtain ⟨-, hlearns, -, hnone, hfailure⟩ := hends
    refine ⟨hlearns.toGrowsTo, fun s₂ hg _ => ?_⟩
    obtain ⟨hnone, hfailure⟩ := (hg.functions key).failure why hnone hfailure
    exact run_resolveSignature_failed hnone hfailure
  · cases hends
  · obtain ⟨-, hlearns, hsig⟩ := hends
    exact ⟨hlearns.toGrowsTo, fun s₂ hg _ => run_resolveSignature ((hg.functions key).signature sig hsig)⟩

end Action

end RainCheck
