import RainCheck.Proofs.Compilation

/-!
# Types of the functions of a module

Which functions of a module have a type is told by the declarations alone, and so is what the type denotes.
* A written type is refused between declarations only if a name in it is not in scope or it contains a doomed struct by
  value (`unfine_typeWith`).
* The type of a function denotes the written one, or the problem of the function is on record (`Store.Signed`).
-/

namespace RainCheck

/-- The names in the declared types of a function. -/
def Prototype.occurrences (p : Prototype) : List (Bool × String) :=
  TypeExpr.occurrencesAll p.params ++ TypeExpr.optionOccurrences p.returns

namespace Action

variable {α : Type} {L : Listing} {s : Store}

/-- What is known about the end of an action holds at once. -/
private theorem Ends.and {a : Action α} {done done' : α → Store → Prop} {refused refused' : Diagnostic → Store → Prop}
    (h : a.Ends s done refused) (h' : a.Ends s done' refused') :
    a.Ends s (fun x s' => done x s' ∧ done' x s') fun d s' => refused d s' ∧ refused' d s' := by
  unfold Ends at h h' ⊢
  split at h <;> simp_all

private theorem Fine.of_append {names names' : List (Bool × String)} (h : Fine L (names ++ names')) :
    Fine L names ∧ Fine L names' :=
  ⟨fun hclosed n hn => h hclosed n (List.mem_append_left _ hn),
    fun hclosed n hn => h hclosed n (List.mem_append_right _ hn)⟩

/-! ### Written types that are refused -/

section

variable {depth : Nat} {complete : Span → TypeId → Action TypeId}

/-- Between declarations only a doomed struct is not completed. -/
private theorem doomed_of_refused (hc : Completes L depth complete) (hclosed : L.closed) {use : Span} {id : TypeId}
    (hs : s.Sound L) (hdepth : s.pending < depth) (hid : s.Known id) (hidle : s.Idle) :
    (complete use id).Ends s (fun _ _ => True) fun _ _ =>
      ∃ B state, s.typeAt? id = some (.struct B state) ∧ B.Doomed L.scope := by
  refine (hc s use id hs hdepth hid fun _ A hA => absurd hA hidle.not_top).mono (fun _ _ _ => trivial) ?_
  rintro d s' ⟨hs', hext, -, ⟨B, hfailed⟩ | ⟨B, hresolving⟩⟩
  · obtain ⟨e, he, -⟩ := hid
    have hdoomed := (hs'.types.failed id B d hfailed).2 hclosed
    cases hext.toGrowsTo.entry_of_some he hfailed <;> exact ⟨B, _, he, hdoomed⟩
  · have hmem := (hs.types.resolving id).mpr ⟨B, hresolving⟩
    rw [show s.types.resolving.items = [] from hidle] at hmem
    cases hmem

private theorem unfine_named (hc : Completes L depth complete) (hclosed : L.closed) {span : Span}
    {name : String} {shallow : Bool}
    (h : Resolvable L depth FrameId.module [.typeName span] [⟨shallow, name, span⟩] s) (hidle : s.Idle) :
    (resolveTypeWith complete FrameId.module shallow (.named span name)).Ends s (fun _ _ => True) fun _ _ =>
      ¬Fine L [(shallow, name)] := by
  obtain ⟨r, hlookup, hknown⟩ := h.sound.frames.lookupType h.frame name
  rw [resolveTypeWith, ends_bind, ends_get, ends_bind, hlookup, ends_lift]
  cases r with
  | none =>
    simp only [ends_refuse]
    exact fun hfine => (hfine hclosed _ List.mem_cons_self).1 (h.sound.frames.scope_eq_none hclosed hlookup)
  | some t =>
    cases shallow with
    | true => exact trivial
    | false =>
      refine (doomed_of_refused hc hclosed h.sound h.depth (hknown t rfl) hidle).mono (fun _ _ => id) ?_
      rintro d s' ⟨B, state, he, hdoomed⟩ hfine
      exact (hfine hclosed _ List.mem_cons_self).2 rfl B (h.sound.frames.scope_eq_some hclosed hlookup he) hdoomed

mutual

/-- A written type is refused for one of the names in it. -/
theorem unfine_typeWith (hc : Completes L depth complete) (hclosed : L.closed) {shallow : Bool}
    {s : Store} (t : TypeExpr)
    (h : Resolvable L depth FrameId.module t.mentions (t.uses shallow) s) (hidle : s.Idle) :
    (resolveTypeWith complete FrameId.module shallow t).Ends s (fun _ _ => True) fun _ _ =>
      ¬Fine L (t.occurrences shallow) := by
  match t with
  | .named span name => exact unfine_named hc hclosed h hidle
  | .reference span inner =>
    rw [resolveTypeWith]
    exact (unfine_typeWith hc hclosed inner h hidle).bind fun _ _ _ => trivial
  | .function span params returns =>
    have hends := (resolves_typesWith hc params h.params).and (unfine_typesWith hc hclosed params h.params hidle)
    rw [resolveTypeWith]
    refine (hends.mono (fun _ _ h => h.1) fun _ _ h => mt (·.of_append.1) h.2).bind ?_
    rintro ids s₁ ⟨hs₁, hext₁, -⟩
    have hends := unfine_returnsWith hc hclosed returns (h.returns hs₁ hext₁) (hext₁.idle hidle)
    exact (hends.mono (fun _ _ => id) fun _ _ => mt (·.of_append.2)).bind fun _ _ _ => trivial

private theorem unfine_typesWith (hc : Completes L depth complete) (hclosed : L.closed) {s : Store} (ts : List TypeExpr)
    (h : Resolvable L depth FrameId.module (TypeExpr.mentionsAll ts) (TypeExpr.usesAll ts) s) (hidle : s.Idle) :
    (resolveTypesWith complete FrameId.module ts).Ends s (fun _ _ => True) fun _ _ =>
      ¬Fine L (TypeExpr.occurrencesAll ts) := by
  match ts with
  | [] =>
    rw [resolveTypesWith]
    exact trivial
  | t :: rest =>
    have hends := (resolves_typeWith hc t h.first).and (unfine_typeWith hc hclosed t h.first hidle)
    rw [resolveTypesWith]
    refine (hends.mono (fun _ _ h => h.1) fun _ _ h => mt (·.of_append.1) h.2).bind ?_
    rintro _ s₁ ⟨hs₁, hext₁, -⟩
    have hends := unfine_typesWith hc hclosed rest (h.rest hs₁ hext₁) (hext₁.idle hidle)
    exact (hends.mono (fun _ _ => id) fun _ _ => mt (·.of_append.2)).bind fun _ _ _ => trivial

private theorem unfine_returnsWith (hc : Completes L depth complete) (hclosed : L.closed)
    {s : Store} (t : Option TypeExpr)
    (h : Resolvable L depth FrameId.module (TypeExpr.optionMentions t) (TypeExpr.optionUses t) s) (hidle : s.Idle) :
    (resolveReturnsWith complete FrameId.module t).Ends s (fun _ _ => True) fun _ _ =>
      ¬Fine L (TypeExpr.optionOccurrences t) := by
  match t with
  | none =>
    rw [resolveReturnsWith]
    exact trivial
  | some t =>
    rw [resolveReturnsWith]
    exact unfine_typeWith hc hclosed t h hidle

end

end

/-! ### Types of functions -/

section

variable (hs : s.Sound L) (hidle : s.Idle) (hclosed : L.closed) {declared : Prototype}
  (hdeclared : L.Lists declared.mentions)

include hs hidle hclosed hdeclared

/-- The type of a function denotes the declared types, or a name in these is to blame. -/
private theorem ends_prototype :
    (resolvePrototype FrameId.module declared).Ends s
      (fun sig s' => s.Refines s' ∧ s'.Denotes sig (declared.term L.scope) ∧ Fine L declared.occurrences)
      fun _ s' => s.Refines s' ∧ ¬Fine L declared.occurrences := by
  have hc : ∀ depth, Completes L depth (completeWithin depth) := completes_completeWithin L
  obtain ⟨hparams, hreturns⟩ := Listing.lists_append.mp hdeclared
  unfold resolvePrototype resolveTypes resolveReturns depthBound
  simp only [ends_bind, ends_get, ends_pure]
  have hr : Resolvable L _ _ _ (TypeExpr.usesAll declared.params) s :=
    resolvable_of_idle hs hidle hs.frames.module_lt hparams
  refine ((resolves_typesWith (hc _) _ hr).and (unfine_typesWith (hc _) hclosed _ hr hidle)).mono ?_ ?_
  · rintro ids s₁ ⟨⟨hs₁, hext₁, hsettled, -, hfine, hterms⟩, -⟩
    have hidle₁ := hext₁.idle hidle
    have hr₁ : Resolvable L _ _ _ (TypeExpr.optionUses declared.returns) s₁ :=
      resolvable_of_idle hs₁ hidle₁ hs₁.frames.module_lt hreturns
    refine ((resolves_returnsWith (hc _) _ hr₁).and (unfine_returnsWith (hc _) hclosed _ hr₁ hidle₁)).mono ?_ ?_
    · rintro t s₂ ⟨⟨hs₂, hext₂, hreturn, hfine', hterm⟩, -⟩
      have hsettled₂ := fun p hp => hext₂.toGrowsTo.settled (hsettled p hp)
      obtain ⟨-, hext₃, he⟩ := ends_updateTypes.mp (resolves_functionOf hs₂ hsettled₂ hreturn)
      refine ends_updateTypes.mpr ⟨(hext₁.trans hext₂).trans hext₃, ?_, (hfine rfl).append (hfine' rfl)⟩
      exact .function he ((hext₂.trans hext₃).toGrowsTo.denotesAll (hterms rfl hclosed))
        (hext₃.toGrowsTo.denotes (hterm rfl hclosed))
    · rintro why s₂ ⟨⟨-, hext₂, -⟩, hunfine⟩
      exact ⟨hext₁.trans hext₂, mt (·.of_append.2) hunfine⟩
  · rintro why s₁ ⟨⟨-, hext₁, -⟩, hunfine⟩
    exact ⟨hext₁, mt (·.of_append.1) hunfine⟩

/-- The type of a function about which nothing is known yet is on record behind this, or its problem is. -/
theorem ends_signature_new {key : Span} (hnew : (s.function key).signature = none ∧ (s.function key).failure = none) :
    (resolveSignature FrameId.module key declared).Ends s
      (fun sig s' => (∀ k, k ≠ key → s'.function k = s.function k) ∧ (s'.function key).signature = some sig ∧
        s'.Denotes sig (declared.term L.scope) ∧ Fine L declared.occurrences)
      fun why s' => (∀ k, k ≠ key → s'.function k = s.function k) ∧ (s'.function key).signature = none ∧
        (s'.function key).failure = some why ∧ ¬Fine L declared.occurrences := by
  refine ends_bind.mpr (ends_get.mpr ?_)
  dsimp only
  rw [hnew.1, hnew.2]
  have hrecord : ∀ {s' : Store}, s.Refines s' → ∀ k, s'.function k = s.function k := fun h k => by
    unfold Store.function
    rw [h.functions_eq]
  have hothers : ∀ {s' : Store} {r : FunctionRecord}, s.Refines s' → ∀ k, k ≠ key →
      (s'.withFunction key r).function k = s.function k := fun h k hk => by
    rw [Store.function_withFunction, if_neg hk, hrecord h]
  refine Ends.bind (ends_prototype hs hidle hclosed hdeclared).outcome ?_
  rintro r s' (⟨sig, rfl, hext, hdenotes, hfine⟩ | ⟨why, rfl, hext, hunfine⟩)
  · refine ends_bind.mpr (ends_updateFunction.mpr (ends_pure.mpr ⟨hothers hext, ?_, ?_, hfine⟩))
    · exact (congrArg FunctionRecord.signature (Store.function_withFunction key key _)).trans (by simp)
    · exact hdenotes.keep ⟨fun _ _ he _ => he, fun _ _ state he => ⟨state, he⟩, fun _ _ hr => hr⟩
  · refine ends_bind.mpr (ends_updateFunction.mpr (ends_throw.mpr ⟨hothers hext, ?_, ?_, hunfine⟩))
    · refine (congrArg FunctionRecord.signature (Store.function_withFunction key key _)).trans ?_
      rw [if_pos rfl, hrecord hext, hnew.1]
    · exact (congrArg FunctionRecord.failure (Store.function_withFunction key key _)).trans (by simp)

end

end Action

end RainCheck
