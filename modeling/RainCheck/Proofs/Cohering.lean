import RainCheck.Proofs.Evolving

/-!
# Actions on coherent stores

Resolving types and registering declarations keeps a store coherent, unless it raises a fault
(`Action.Coheres`): what is resolved by value is finished, and in the end the same structs are being
resolved as in the beginning.
-/

namespace RainCheck

/-! ### Partial correctness -/

namespace Action

variable {α β : Type} {decls : List Decl} {s : Store} {a : Action α} {f : α → Action β} {P : α → Store → Prop}
  {Q : β → Store → Prop}

/--
Unless an action raises a fault, the store is coherent afterwards, structs have gone on, and those
that were being resolved still are; a result has a property.
-/
def Coheres (decls : List Decl) (s : Store) (a : Action α) (P : α → Store → Prop) : Prop :=
  Triple (· = s) a (fun x s' => s.AdvancesTo s' ∧ s'.Coherent decls ∧ P x s')
    fun _ s' => s.AdvancesTo s' ∧ s'.Coherent decls

theorem Coheres.mono {P' : α → Store → Prop} (h : Coheres decls s a P)
    (himp : ∀ x s', s.AdvancesTo s' → s'.Coherent decls → P x s' → P' x s') : Coheres decls s a P' :=
  Triple.mono h (fun _ hs => hs) (fun x s' hs' => ⟨hs'.1, hs'.2.1, himp x s' hs'.1 hs'.2.1 hs'.2.2⟩) fun _ _ hs' => hs'

/-- What leads on to a store leads on from any store in front of it. -/
private theorem Coheres.from_earlier {s₀ : Store} (h : Coheres decls s a P) (hs : s₀.AdvancesTo s) :
    Triple (· = s) a (fun x s' => s₀.AdvancesTo s' ∧ s'.Coherent decls ∧ P x s')
      fun _ s' => s₀.AdvancesTo s' ∧ s'.Coherent decls :=
  Triple.mono h (fun _ hs => hs) (fun _ _ hs' => ⟨hs.trans hs'.1, hs'.2⟩) fun _ _ hs' => ⟨hs.trans hs'.1, hs'.2⟩

theorem Coheres.bind (h : Coheres decls s a P)
    (hf : ∀ x s', s.AdvancesTo s' → s'.Coherent decls → P x s' → Coheres decls s' (f x) Q) :
    Coheres decls s (a >>= f) Q :=
  Triple.bind h fun x s' hs' => (hf x s' hs'.1 hs'.2.1 hs'.2.2).from_earlier hs'.1 s' rfl

theorem coheres_pure {x : α} (hs : s.Coherent decls) (h : P x s) : Coheres decls s (pure x) P := by
  rintro _ rfl
  exact ⟨.refl _, hs, h⟩

private theorem coheres_throw {why : Stop} (hs : s.Coherent decls) : Coheres decls s (throw why : Action α) P := by
  rintro _ rfl
  cases why with
  | refused d => exact ⟨.refl _, hs⟩
  | fault g => trivial

theorem coheres_refuse {span : Span} {cause : Cause} (hs : s.Coherent decls) :
    Coheres decls s (refuse span cause : Action α) P :=
  coheres_throw hs

theorem coheres_fail {g : Fault} : Coheres decls s (fail g : Action α) P := fun _ _ => trivial

theorem coheres_get {f : Store → Action β} (h : Coheres decls s (f s) Q) : Coheres decls s (get >>= f) Q := by
  intro s' heq
  subst heq
  exact h s' rfl

theorem coheres_lift {r : Except Fault α} (h : ∀ x, r = .ok x → Coheres decls s (f x) Q) :
    Coheres decls s (lift r >>= f) Q := by
  cases r with
  | ok x => exact h x rfl
  | error g => exact coheres_fail

theorem coheres_fromTypes {read : Types → Except Fault α} (h : ∀ x, read s.types = .ok x → Coheres decls s (f x) Q) :
    Coheres decls s (fromTypes read >>= f) Q :=
  coheres_get (f := fun s => lift (read s.types) >>= f) (coheres_lift h)

/-- An action that only looks at the store. -/
theorem Reads.coheres (h : a.Reads) (hs : s.Coherent decls) :
    Coheres decls s a fun x s' => s' = s ∧ a.Yields s x s := by
  intro s' heq
  subst heq
  have hsame := h s'
  rcases hrun : a.run.run s' with ⟨(d | g) | x, s''⟩ <;> rw [hrun] at hsame <;> obtain rfl : s'' = s' := hsame
  · exact ⟨.refl _, hs⟩
  · trivial
  · exact ⟨.refl _, hs, rfl, hrun⟩

/-- An action whose end is observed; a fault is passed on. -/
private theorem Coheres.outcome {f : Except Stop α → Action β} (h : Coheres decls s a P)
    (hok : ∀ x s', s.AdvancesTo s' → s'.Coherent decls → P x s' → Coheres decls s' (f (.ok x)) Q)
    (hrefused : ∀ d s', s.AdvancesTo s' → s'.Coherent decls → Coheres decls s' (f (.error (.refused d))) Q)
    (hfault : ∀ g, f (.error (.fault g)) = fail g) : Coheres decls s (a.outcome >>= f) Q := by
  refine (triple_outcome h).bind fun r => ?_
  rcases r with (d | g) | x
  · exact fun s' hs' => (hrefused d s' hs'.1 hs'.2).from_earlier hs'.1 s' rfl
  · rw [hfault]
    exact fun _ _ => trivial
  · exact fun s' hs' => (hok x s' hs'.1 hs'.2.1 hs'.2.2).from_earlier hs'.1 s' rfl

/-! ### Written types -/

private theorem coheres_intern {e : TypeEntry} {p : TypeEntry → Bool}
    (hp : ∀ x, p x = true ↔ x = e) (hs : s.Coherent decls)
    (he : s.Admits decls e) : Coheres decls s (updateTypes (·.intern p e)) fun t s' => s'.typeAt? t = some e := by
  intro s' heq
  subst heq
  rw [show (updateTypes (·.intern p e)).run.run s' =
    (.ok (s'.types.intern p e).1, { s' with types := (s'.types.intern p e).2 }) from rfl]
  rcases (Types.intern_cases hp : _ ∨ s'.types.intern p e = _ ∧ _) with ⟨t, hintern, hentry⟩ | ⟨hintern, -⟩
  · rw [hintern]
    exact ⟨.refl s', hs, hentry⟩
  · rw [hintern]
    exact ⟨Store.advancesTo_addType, hs.addType he, Store.entry_addType.mpr (.inr ⟨rfl, rfl⟩)⟩

theorem coheres_reference {inner : TypeId} (hs : s.Coherent decls) (hinner : s.Live inner) :
    Coheres decls s (updateTypes (·.reference inner)) fun t s' => s'.Finished t := by
  have hadmits : s.Admits decls (.reference inner) := by
    refine ⟨?_, by simp [TypeEntry.contents], by rintro _ _ ⟨⟩⟩
    rintro _ ⟨⟩
    exact hinner
  exact (coheres_intern (fun _ => TypeEntry.isReferenceTo_iff) hs hadmits).mono fun _ _ _ _ ht =>
    Store.finished_of_entry ht rfl

private theorem coheres_functionOf {params : List TypeId} {returns : TypeId} (hs : s.Coherent decls)
    (hparams : ∀ p ∈ params, s.Finished p) (hreturns : s.Finished returns) :
    Coheres decls s (updateTypes (·.functionOf params returns)) fun t s' => s'.Finished t := by
  have hadmits : s.Admits decls (.function params returns) :=
    ⟨by rintro _ ⟨⟩, List.forall_mem_cons.mpr ⟨hreturns, hparams⟩, by rintro _ _ ⟨⟩⟩
  exact (coheres_intern (fun _ => TypeEntry.isFunctionOf_iff) hs hadmits).mono fun _ _ _ _ ht =>
    Store.finished_of_entry ht rfl

/-- A type that is found by its name is in use. -/
theorem live_lookupType {fr : FrameId} {name : String} {t : TypeId} (hs : s.Coherent decls)
    (h : s.frames.lookupType fr name = .ok (some t)) : s.Live t := by
  unfold Frames.lookupType Frames.search at h
  cases hchain : s.frames.chain fr with
  | error g =>
    rw [hchain] at h
    cases h
  | ok chain =>
    rw [hchain, ok_bind] at h
    obtain ⟨_, f, hf, hfind⟩ := exists_of_searchIn h
    exact hs.names.types f (List.mem_of_getElem? hf) _ (Store.mem_of_lookup hfind)

/-- Completing a type that is in use finishes it. -/
def Finishes (decls : List Decl) (complete : Span → TypeId → Action TypeId) : Prop :=
  ∀ s use t, s.Coherent decls → s.Live t → Coheres decls s (complete use t) fun u s' => s'.Finished u

section

variable {complete : Span → TypeId → Action TypeId} {fr : FrameId}

mutual

private theorem coheres_typeWith (hcomplete : Finishes decls complete) (shallow : Bool) (t : TypeExpr) {s : Store}
    (hs : s.Coherent decls) :
    Coheres decls s (resolveTypeWith complete fr shallow t) fun u s' =>
      s'.Live u ∧ (shallow = false → s'.Finished u) := by
  match t with
  | .named span name =>
    rw [resolveTypeWith]
    refine coheres_get (coheres_lift fun r hr => ?_)
    cases r with
    | none => exact coheres_refuse hs
    | some u =>
      have hu : s.Live u := live_lookupType hs hr
      cases shallow with
      | true => exact coheres_pure hs ⟨hu, nofun⟩
      | false => exact (hcomplete s span u hs hu).mono fun _ _ _ _ hv => ⟨hv.1, fun _ => hv⟩
  | .reference span inner =>
    rw [resolveTypeWith]
    refine (coheres_typeWith hcomplete true inner hs).bind fun u s₁ _ hs₁ hu => ?_
    exact (coheres_reference hs₁ hu.1).mono fun _ _ _ _ hv => ⟨hv.1, fun _ => hv⟩
  | .function span params returns =>
    rw [resolveTypeWith]
    refine (coheres_typesWith hcomplete params hs).bind fun us s₁ _ hs₁ hus => ?_
    refine (coheres_returnsWith hcomplete returns hs₁).bind fun u s₂ hadvances hs₂ hu => ?_
    exact (coheres_functionOf hs₂ (fun p hp => (hus p hp).moves hadvances.toMovesTo) hu).mono
      fun _ _ _ _ hv => ⟨hv.1, fun _ => hv⟩

private theorem coheres_typesWith (hcomplete : Finishes decls complete) (ts : List TypeExpr) {s : Store}
    (hs : s.Coherent decls) :
    Coheres decls s (resolveTypesWith complete fr ts) fun us s' => ∀ u ∈ us, s'.Finished u := by
  match ts with
  | [] =>
    rw [resolveTypesWith]
    exact coheres_pure hs (by simp)
  | t :: rest =>
    rw [resolveTypesWith]
    refine (coheres_typeWith hcomplete false t hs).bind fun u s₁ _ hs₁ hu => ?_
    refine (coheres_typesWith hcomplete rest hs₁).bind fun us s₂ hadvances hs₂ hus => ?_
    exact coheres_pure hs₂ (List.forall_mem_cons.mpr ⟨(hu.2 rfl).moves hadvances.toMovesTo, hus⟩)

private theorem coheres_returnsWith (hcomplete : Finishes decls complete) (t : Option TypeExpr) {s : Store}
    (hs : s.Coherent decls) : Coheres decls s (resolveReturnsWith complete fr t) fun u s' => s'.Finished u := by
  match t with
  | none =>
    rw [resolveReturnsWith]
    exact coheres_pure hs (Store.finished_of_entry (hs.types.primitives TypeId.void "void" rfl) rfl)
  | some t =>
    rw [resolveReturnsWith]
    exact (coheres_typeWith hcomplete false t hs).mono fun _ _ _ _ hu => hu.2 rfl

end

/-! ### Structs -/

/-- The fields of a struct are finished, in their order and with distinct names. -/
private theorem coheres_fields {resolve : TypeExpr → Action TypeId}
    (hresolve : ∀ s t, s.Coherent decls → Coheres decls s (resolve t) fun u s' => s'.Finished u)
    {fields : List FieldDecl}
    {done : List (String × TypeId)} (hs : s.Coherent decls) (hdone : ∀ f ∈ done, s.Finished f.2)
    (hdistinct : (done.map (·.1)).Nodup) :
    Coheres decls s (resolveFields resolve done fields) fun fs s' => (∀ f ∈ fs, s'.Finished f.2) ∧
      fs.map (·.1) = done.map (·.1) ++ fields.map (·.name) ∧ (fs.map (·.1)).Nodup := by
  induction fields generalizing s done with
  | nil => exact coheres_pure hs ⟨hdone, by simp, hdistinct⟩
  | cons field rest ih =>
    rw [resolveFields]
    cases hlookup : done.lookup field.name with
    | some t => exact coheres_refuse hs
    | none =>
      refine (hresolve s field.type hs).bind fun u s₁ hadvances hs₁ hu => ?_
      have hnew : field.name ∉ done.map (·.1) := by
        intro hmem
        obtain ⟨p, hp, hname⟩ := List.mem_map.mp hmem
        exact absurd hname.symm (by simpa using List.lookup_eq_none_iff.mp hlookup p hp)
      have hmore : ∀ f ∈ done ++ [(field.name, u)], s₁.Finished f.2 := fun f hf => by
        rcases List.mem_append.mp hf with hf | hf
        · exact (hdone f hf).moves hadvances.toMovesTo
        · rw [List.mem_singleton.mp hf]
          exact hu
      have hdistinct' : ((done ++ [(field.name, u)]).map (·.1)).Nodup := by
        simpa [List.nodup_append] using ⟨hdistinct, fun name t ht heq => hnew (heq ▸ List.mem_map_of_mem ht)⟩
      exact (ih hs₁ hmore hdistinct').mono fun fs s' _ _ hfs => by simpa using hfs

/-- A struct is not being resolved any more. -/
private theorem triple_stop {items : List TypeId} {t : TypeId} {state : StructState} {I : Store → Prop}
    {R : Diagnostic → Store → Prop} (hitems : ∀ s, I s → s.types.resolving = (⟨items⟩ : Stack TypeId).push t)
    {b : Action α} {K : α → Store → Prop} (h : ∀ s, I s → Triple (· = s.withState t state ⟨items⟩) b K R) :
    Triple I (stopResolving >>= fun _ => setState t state >>= fun _ => b) K R := by
  intro s hs
  have hpop : s.types.resolving.pop = .ok (t, ⟨items⟩) := by
    rw [hitems s hs]
    simp [Stack.pop, Stack.peek, Stack.push]
  have hstop : stopResolving.run.run s = (.ok (), { s with types := { s.types with resolving := ⟨items⟩ } }) := by
    unfold stopResolving fromTypes
    change (lift s.types.resolving.pop >>= fun p => (updateTypes fun ts => ((), { ts with resolving := p.2 }) :
      Action Unit)).run.run s = _
    rw [hpop]
    rfl
  rw [run_bind, hstop]
  exact h s hs _ rfl

end

variable {fr : FrameId}

private theorem coheres_body {complete : Span → TypeId → Action TypeId}
    (hcomplete : Finishes decls complete) {t : TypeId}
    {decl : StructDecl} (hs : s.Coherent decls)
    (ht : s.typeAt? t = some (.struct decl .unresolved)) (hlive : s.Live t) :
    Coheres decls s (resolveBody complete decl) fun u s' => s'.Finished u := by
  unfold resolveBody
  refine coheres_get (coheres_lift fun r hr => ?_)
  obtain rfl : r.type = t := by
    obtain ⟨e, he, hregistered⟩ := hlive
    have hrecord := hregistered decl .unresolved (Option.some.inj (he.symm.trans ht))
    rw [unwrap_eq_ok_iff.mp hr] at hrecord
    exact Option.some.inj hrecord
  have hstart : Triple (· = s) (startResolving r.type)
      (fun _ s' => s' = s.withState r.type .resolving (s.types.resolving.push r.type))
      fun _ s' => s.AdvancesTo s' ∧ s'.Coherent decls := fun s' heq => heq ▸ rfl
  have hfields : Coheres decls (s.withState r.type .resolving (s.types.resolving.push r.type))
      (resolveFields (resolveTypeWith complete r.frame false) [] decl.fields) fun fs s' => (∀ f ∈ fs, s'.Finished f.2) ∧
        fs.map (·.1) = decl.fields.map (·.name) ∧ (fs.map (·.1)).Nodup :=
    coheres_fields (fun _ t hs => (coheres_typeWith hcomplete false t hs).mono fun _ _ _ _ hu => hu.2 rfl) (hs.start ht)
      (by simp) List.nodup_nil
  have hstack : ∀ s₂ : Store, (s.withState r.type .resolving (s.types.resolving.push r.type)).AdvancesTo s₂ →
      s₂.types.resolving = s.types.resolving.push r.type := fun s₂ h => h.resolving
  refine hstart.bind fun _ => (triple_outcome hfields).bind fun result => ?_
  -- the stack is popped whether the fields were resolved or refused
  rcases result with (why | g) | fields
  · refine triple_stop (fun s₂ hs₂ => hstack s₂ hs₂.1) fun s₂ hs₂ => ?_
    obtain ⟨hadvances, hcoherent, -⟩ := hs.stop ht hs₂.1 hs₂.2 (.fail why) nofun
    rintro _ rfl
    exact ⟨hadvances, hcoherent⟩
  · exact fun _ _ => trivial
  · refine triple_stop (fun s₂ hs₂ => hstack s₂ hs₂.1) fun s₂ hs₂ => ?_
    obtain ⟨hadvances, hcoherent, hresolved⟩ :=
      hs.stop ht hs₂.1 hs₂.2.1 (.finish fields) (by rintro _ ⟨⟩; exact hs₂.2.2)
    rintro _ rfl
    refine ⟨hadvances, hcoherent, hlive.moves hadvances.toMovesTo, fun d state hd => ⟨fields, ?_⟩⟩
    obtain heq := Option.some.inj (hresolved.symm.trans hd)
    cases heq
    rfl

private theorem finishes_completeWithin (depth : Nat) : Finishes decls (completeWithin depth) := by
  induction depth with
  | zero => exact fun _ _ _ _ _ => coheres_fail
  | succ depth ih =>
    intro s use t hs hlive
    rw [completeWithin]
    refine coheres_fromTypes fun e he => ?_
    have ht : s.typeAt? t = some e := itemAt_eq_ok_iff.mp he
    split
    · exact coheres_body ih hs ht hlive
    · exact (reads_cycleFrom.coheres hs).bind fun _ _ _ hs' _ => coheres_refuse hs'
    · exact coheres_throw hs
    · rename_i hunresolved hresolving hfailed
      refine coheres_pure hs ⟨hlive, fun d state hd => ?_⟩
      obtain rfl := Option.some.inj (ht.symm.trans hd)
      cases state with
      | resolved fields => exact ⟨fields, rfl⟩
      | unresolved => exact absurd rfl (hunresolved d)
      | resolving => exact absurd rfl (hresolving d)
      | failed why => exact absurd rfl (hfailed d why)

private theorem coheres_depthBound {f : Nat → Action β} {Q : β → Store → Prop}
    (h : ∀ depth, Coheres decls s (f depth) Q) :
    Coheres decls s (depthBound >>= f) Q :=
  coheres_get (f := fun s => f (2 * s.types.size + 2)) (h _)

theorem coheres_complete {use : Span} {t : TypeId} (hs : s.Coherent decls) (ht : s.Live t) :
    Coheres decls s (complete use t) fun u s' => s'.Finished u :=
  coheres_depthBound fun depth => finishes_completeWithin depth s use t hs ht

theorem coheres_resolveType {t : TypeExpr} (hs : s.Coherent decls) :
    Coheres decls s (resolveType fr t) fun u s' => s'.Finished u :=
  coheres_depthBound fun depth =>
    (coheres_typeWith (finishes_completeWithin depth) false t hs).mono fun _ _ _ _ hu => hu.2 rfl

/-! ### Declarations -/

private theorem coheres_prototype {declared : Prototype} (hs : s.Coherent decls) :
    Coheres decls s (resolvePrototype fr declared) fun u s' => s'.Finished u := by
  have hparams : Coheres decls s (resolveTypes fr declared.params) fun us s' => ∀ u ∈ us, s'.Finished u :=
    coheres_depthBound fun depth => coheres_typesWith (finishes_completeWithin depth) declared.params hs
  refine hparams.bind fun us s₁ _ hs₁ hus => ?_
  have hreturns : Coheres decls s₁ (resolveReturns fr declared.returns) fun u s' => s'.Finished u :=
    coheres_depthBound fun depth => coheres_returnsWith (finishes_completeWithin depth) declared.returns hs₁
  refine hreturns.bind fun u s₂ hadvances hs₂ hu => ?_
  exact coheres_functionOf hs₂ (fun p hp => (hus p hp).moves hadvances.toMovesTo) hu

private theorem run_updateFrames (change : Frames → Except Stop Frames) (s : Store) :
    (updateFrames change).run.run s =
      match change s.frames with
      | .ok frames => (.ok (), { s with frames })
      | .error e => (.error e, s) := by
  change (liftStop (change s.frames) >>= fun frames => (set { s with frames } : Action Unit)).run.run s = _
  cases change s.frames <;> rfl

/-- One frame is changed, or the action is refused. -/
private theorem coheres_updateFrame (fr : FrameId) {change : Frames → Except Stop Frames} (hs : s.Coherent decls)
    (hchange : ∀ frames, change s.frames = .ok frames → ∃ f g, f ∈ s.frames.frames ∧
      frames.frames = s.frames.frames.set fr g ∧ (∀ p ∈ g.types, p ∈ f.types ∨ s.Live p.2) ∧
        ∀ p ∈ g.values, p ∈ f.values ∨ ∀ t, p.2.type.value? = some t → s.Live t) :
    Coheres decls s (updateFrames change) fun _ _ => True := by
  intro s' heq
  subst heq
  rw [run_updateFrames]
  rcases hframes : change s'.frames with (d | g) | frames
  · exact ⟨.refl s', hs⟩
  · trivial
  · obtain ⟨f, g, hf, hset, htypes, hvalues⟩ := hchange frames hframes
    refine ⟨.of_eq rfl rfl, hs.withFrames (fun h hh p hp => ?_) (fun h hh p hp => ?_), trivial⟩
    · rcases List.mem_or_eq_of_mem_set (hset ▸ hh) with hh | rfl
      · exact hs.names.types h hh p hp
      · exact (htypes p hp).elim (hs.names.types f hf p) id
    · rcases List.mem_or_eq_of_mem_set (hset ▸ hh) with hh | rfl
      · exact hs.names.values h hh p hp
      · exact (hvalues p hp).elim (hs.names.values f hf p) id

/-- What is declared in a frame stands behind what is declared there already. -/
private theorem declare_inv {fs frames : Frames} {v : Variable} (h : fs.declare fr v = .ok frames) :
    ∃ f ∈ fs.frames, frames.frames = fs.frames.set fr { f with values := f.values ++ [(v.name, v)] } := by
  unfold Frames.declare at h
  cases hget : fs.get fr with
  | error g =>
    rw [hget] at h
    cases h
  | ok f =>
    rw [hget] at h
    simp only [Stop.lift, ok_bind] at h
    split at h <;> cases h
    exact ⟨f, List.mem_of_getElem? (itemAt_eq_ok_iff.mp hget), rfl⟩

private theorem declareType_inv {fs frames : Frames} {name : String} {t : TypeId} {span : Span}
    (h : fs.declareType fr name t span = .ok frames) :
    ∃ f ∈ fs.frames, frames.frames = fs.frames.set fr { f with types := f.types ++ [(name, t)] } := by
  unfold Frames.declareType at h
  cases hget : fs.get fr with
  | error g =>
    rw [hget] at h
    cases h
  | ok f =>
    rw [hget] at h
    simp only [Stop.lift, ok_bind] at h
    split at h <;> cases h
    exact ⟨f, List.mem_of_getElem? (itemAt_eq_ok_iff.mp hget), rfl⟩

theorem coheres_declare {v : Variable} (hs : s.Coherent decls) (hv : ∀ t, v.type.value? = some t → s.Live t) :
    Coheres decls s (declare fr v) fun _ _ => True := by
  refine coheres_updateFrame fr hs fun frames hchange => ?_
  obtain ⟨f, hf, hset⟩ := declare_inv hchange
  refine ⟨f, _, hf, hset, fun p hp => .inl hp, fun p hp => ?_⟩
  rcases List.mem_append.mp hp with hp | hp
  · exact .inl hp
  · rw [List.mem_singleton.mp hp]
    exact .inr hv

private theorem coheres_declareType {name : String} {t : TypeId} {span : Span} (hs : s.Coherent decls) (ht : s.Live t) :
    Coheres decls s (declareType fr name t span) fun _ _ => True := by
  refine coheres_updateFrame fr hs fun frames hchange => ?_
  obtain ⟨f, hf, hset⟩ := declareType_inv hchange
  refine ⟨f, _, hf, hset, fun p hp => ?_, fun p hp => .inl hp⟩
  rcases List.mem_append.mp hp with hp | hp
  · exact .inl hp
  · rw [List.mem_singleton.mp hp]
    exact .inr ht

theorem coheres_nest (hs : s.Coherent decls) : Coheres decls s (nest fr) fun _ _ => True := by
  intro s' heq
  subst heq
  cases hf : s'.frame? fr with
  | none =>
    rw [run_nest_none hf]
    trivial
  | some f =>
    rw [run_nest hf]
    refine ⟨.of_eq rfl rfl, hs.withFrames (fun g hg => ?_) (fun g hg => ?_), trivial⟩ <;>
      rcases List.mem_append.mp hg with hg | hg
    · exact hs.names.types g hg
    · rw [List.mem_singleton.mp hg]
      exact nofun
    · exact hs.names.values g hg
    · rw [List.mem_singleton.mp hg]
      exact nofun

private theorem coheres_updateFunction {key : Span} {change : FunctionRecord → FunctionRecord} (hs : s.Coherent decls)
    (hsignature : ∀ sig, (change (s.function key)).signature = some sig → s.Live sig)
    (hvariable : ∀ v, (change (s.function key)).variableType = some v → ∀ t, v.value? = some t → s.Live t) :
    Coheres decls s (updateFunction key change) fun _ s' => s.MovesTo s' := by
  intro s' heq
  subst heq
  exact ⟨.of_eq rfl rfl, hs.withFunction hsignature hvariable, .of_eq rfl rfl⟩

/-- The type of a function is in use, as soon as it is known. -/
theorem coheres_signature {key : Span} {declared : Prototype} (hs : s.Coherent decls) :
    Coheres decls s (resolveSignature fr key declared) fun t s' => s'.Live t := by
  refine coheres_get ?_
  dsimp only
  cases hsignature : (s.function key).signature with
  | some sig => exact coheres_pure hs (hs.names.signature key sig hsignature)
  | none =>
    cases (s.function key).failure with
    | some why => exact coheres_throw hs
    | none =>
      refine (coheres_prototype hs).outcome (fun sig s₁ _ hs₁ hsig => ?_) (fun why s₁ _ hs₁ => ?_) fun _ => rfl
      · refine (coheres_updateFunction hs₁ ?_ ?_).bind fun _ s₂ _ hs₂ hmoves => coheres_pure hs₂ (hsig.1.moves hmoves)
        · rintro _ ⟨⟩
          exact hsig.1
        · intro v hv t ht
          obtain ⟨_, -, rfl⟩ := Option.map_eq_some_iff.mp hv
          cases ht
          exact hsig.1
      · refine (coheres_updateFunction hs₁ (hs₁.names.signature key) (hs₁.names.variableType key)).bind
          fun _ s₂ _ hs₂ _ => coheres_throw hs₂

theorem coheres_registerFunction {header : Header} (hs : s.Coherent decls) :
    Coheres decls s (registerFunction fr header) fun _ _ => True := by
  have hbinding : ∀ {s : Store} t, header.binding.type.value? = some t → s.Live t := fun _ ht => by cases ht
  refine coheres_get ?_
  split
  · exact coheres_pure hs trivial
  · refine (coheres_declare hs hbinding).bind fun _ s₁ _ hs₁ _ => ?_
    refine (coheres_updateFunction hs₁ (hs₁.names.signature _) ?_).bind fun _ s₂ _ hs₂ _ => ?_
    · rintro _ ⟨⟩ t ht
      cases ht
    · split
      · exact coheres_declare hs₂ hbinding
      · exact coheres_pure hs₂ trivial

/-- A struct gets its record as soon as its name is declared. -/
private theorem coheres_record {decl : StructDecl} {state : StructState} {t : TypeId} (hs : s.Coherent decls)
    (hnew : s.structs.find? decl.span = none) (ht : s.typeAt? t = some (.struct decl state)) :
    Coheres decls s (do
      declareType fr decl.name t decl.span
      modify fun s => { s with structs := s.structs.insert decl.span ⟨t, fr⟩ }
      if decl.exported then declareType FrameId.exported decl.name t decl.span) fun _ _ => True := by
  obtain ⟨hadvances, hs₁, hlive⟩ := hs.withStruct (r := ⟨t, fr⟩) hnew ht
  have hlive : (s.withStruct decl.span ⟨t, fr⟩).Live t := hlive
  -- the name could as well be declared behind the record
  have hdeclare :
      Coheres decls (s.withStruct decl.span ⟨t, fr⟩) (declareType fr decl.name t decl.span) fun _ _ => True :=
    coheres_declareType hs₁ hlive
  replace hdeclare := hdeclare _ rfl
  rw [declareType, run_updateFrames] at hdeclare
  intro s' heq
  subst heq
  rw [run_bind, declareType, run_updateFrames]
  rcases hframes : s'.frames.declareType fr decl.name t decl.span with (d | g) | frames
  · exact ⟨.refl s', hs⟩
  · trivial
  · rw [show (s'.withStruct decl.span ⟨t, fr⟩).frames.declareType fr decl.name t decl.span = _ from hframes] at hdeclare
    obtain ⟨hadvances', hs₂, -⟩ := hdeclare
    have hexport : Coheres decls { s'.withStruct decl.span ⟨t, fr⟩ with frames }
        (do if decl.exported then declareType FrameId.exported decl.name t decl.span) fun _ _ => True := by
      split
      · exact coheres_declareType hs₂ (hlive.moves hadvances'.toMovesTo)
      · exact coheres_pure hs₂ trivial
    exact hexport.from_earlier (hadvances.trans hadvances') _ rfl

theorem coheres_registerStruct {decl : StructDecl} (hs : s.Coherent decls) (hdecl : .struct decl ∈ decls) :
    Coheres decls s (registerStruct fr decl) fun _ _ => True := by
  refine coheres_get ?_
  cases hrecord : s.structs.find? decl.span with
  | some r => exact coheres_pure hs trivial
  | none =>
    have hadded : Coheres decls s (updateTypes (·.addStruct decl)) fun t s' =>
        s'.structs = s.structs ∧ s'.typeAt? t = some (.struct decl .unresolved) := by
      intro s' heq
      subst heq
      refine ⟨Store.advancesTo_addType, hs.addType ⟨nofun, ?_, ?_⟩, rfl, Store.entry_addType.mpr (.inr ⟨rfl, rfl⟩)⟩
      · simp [TypeEntry.contents, StructState.fields]
      · rintro _ _ ⟨⟩
        exact ⟨rfl, hdecl⟩
    exact hadded.bind fun t s₁ _ hs₁ ⟨hstructs, ht⟩ => coheres_record hs₁ (by rw [hstructs, hrecord]) ht

theorem coheres_resolveStruct {decl : StructDecl} (hs : s.Coherent decls) (hdecl : .struct decl ∈ decls) :
    Coheres decls s (resolveStruct fr decl) fun _ _ => True := by
  refine (coheres_registerStruct hs hdecl).bind fun _ s₁ _ hs₁ _ => coheres_get (coheres_lift fun r hr => ?_)
  obtain ⟨d, state, ht, hspan⟩ := hs₁.types.records _ r (unwrap_eq_ok_iff.mp hr)
  refine (coheres_complete hs₁ ⟨_, ht, ?_⟩).mono fun _ _ _ _ _ => trivial
  rintro _ _ ⟨⟩
  rw [hspan, unwrap_eq_ok_iff.mp hr]
  rfl

end Action

end RainCheck
