import RainCheck.Proofs.Actions
import RainCheck.Proofs.Annotation
import RainCheck.Proofs.Declaring

/-!
# Attainable types

No expression completes with the type `never`, nor with a reference to it: other types are
`Attainable`.  What is written in a module is: parameters, results and fields have attainable types
(`Store.Grounded`), whatever an action does to the store and however it ends (`Action.Maintains`).
-/

namespace RainCheck

namespace Store

variable {s s' s'' : Store} {t u : TypeId}

/-! ### Types of a store -/

/-- A type that an expression can complete with. -/
inductive Attainable (s : Store) : TypeId → Prop where
  | primitive {t : TypeId} {name : String} (he : s.typeAt? t = some (.primitive name)) (hne : t ≠ TypeId.never) :
      Attainable s t
  | struct {t : TypeId} {decl : StructDecl} {state : StructState} (he : s.typeAt? t = some (.struct decl state)) :
      Attainable s t
  | reference {t inner : TypeId} (he : s.typeAt? t = some (.reference inner)) (hinner : Attainable s inner) :
      Attainable s t
  | function {t returns : TypeId} {params : List TypeId} (he : s.typeAt? t = some (.function params returns)) :
      Attainable s t

theorem Attainable.ne_never {L : Listing} (h : s.Attainable t) (hs : s.TypesSound L) : t ≠ TypeId.never := by
  rintro rfl
  have hnever := hs.never
  cases h with
  | primitive _ hne => exact hne rfl
  | struct he | reference he | function he =>
    rw [hnever] at he
    cases he

/-- What is loaded from an attainable type is attainable. -/
theorem Attainable.loads (h : s.Attainable t) (hload : s.Loads t u) : s.Attainable u := by
  unfold Loads Types.load at hload
  cases hget : s.types.get t with
  | error f =>
    rw [hget] at hload
    cases hload
  | ok e =>
    rw [hget] at hload
    cases hload
    have he : s.typeAt? t = some e := entry_of_get hget
    cases e with
    | reference inner =>
      cases h with
      | reference he' hinner =>
        rw [he] at he'
        cases he'
        exact hinner
      | primitive he' | struct he' | function he' =>
        rw [he] at he'
        cases he'
    | primitive | struct | function => exact h

/-- What an attainable type can stand for is attainable. -/
theorem Attainable.assignable (h : s.Attainable t) (hne : t ≠ TypeId.never) (hassignable : s.Assignable t u) :
    s.Attainable u := by
  unfold Assignable Types.assignable at hassignable
  by_cases heq : t = u
  · exact heq ▸ h
  · rw [if_neg (by simp [heq, hne])] at hassignable
    refine h.loads ?_
    unfold Loads Types.load
    cases hget : s.types.get t with
    | error f =>
      rw [hget] at hassignable
      cases hassignable
    | ok e =>
      rw [hget] at hassignable
      have hinner : e.inner? = some u := by simpa using hassignable
      rw [ok_bind, hinner]
      rfl

/-! ### Types that stay -/

/-- Types stay what they are, but for the state of structs. -/
def TypesStay (s s' : Store) : Prop :=
  ∀ t e, s.typeAt? t = some e →
    s'.typeAt? t = some e ∨ ∃ decl state state', e = .struct decl state ∧ s'.typeAt? t = some (.struct decl state')

theorem TypesStay.refl (s : Store) : s.TypesStay s := fun _ _ he => .inl he

theorem TypesStay.trans (h : s.TypesStay s') (h' : s'.TypesStay s'') : s.TypesStay s'' := by
  intro t e he
  rcases h t e he with he' | ⟨decl, state, state', rfl, he'⟩
  · exact h' t e he'
  · rcases h' t _ he' with he'' | ⟨_, _, state'', heq, he''⟩
    · exact .inr ⟨decl, state, state', rfl, he''⟩
    · cases heq
      exact .inr ⟨decl, state, state'', rfl, he''⟩

theorem GrowsTo.typesStay (hg : s.GrowsTo s') : s.TypesStay s' := by
  intro t e he
  obtain ⟨e', he', hbecomes⟩ := hg.entries t e he
  cases hbecomes with
  | refl => exact .inl he'
  | start decl state => exact .inr ⟨decl, _, state, rfl, he'⟩
  | finish decl state => exact .inr ⟨decl, _, state, rfl, he'⟩

theorem TypesStay.same {e : TypeEntry} (h : s.TypesStay s') (he : s.typeAt? t = some e) (hstruct : e.struct? = none) :
    s'.typeAt? t = some e := by
  rcases h t e he with he' | ⟨decl, state, state', rfl, -⟩
  · exact he'
  · cases hstruct

/-- Whether a value of one type can stand where another is expected does not change. -/
private theorem TypesStay.assignable (h : s.TypesStay s') (hassignable : s.Assignable t u) : s'.Assignable t u := by
  unfold Assignable Types.assignable at hassignable ⊢
  split at hassignable
  · rename_i heq
    rw [if_pos heq]
  · rename_i hne
    rw [if_neg hne]
    cases hget : s.types.get t with
    | error g =>
      rw [hget] at hassignable
      cases hassignable
    | ok e =>
      rw [hget] at hassignable
      rcases h t e (entry_of_get hget) with he' | ⟨decl, state, state', rfl, he'⟩
      · rw [get_of_entry he']
        exact hassignable
      · rw [get_of_entry he']
        exact hassignable

/-- The type behind a reference does not change. -/
theorem TypesStay.loads (h : s.TypesStay s') (hload : s.Loads t u) : s'.Loads t u := by
  unfold Loads Types.load at hload ⊢
  cases hget : s.types.get t with
  | error g => simp [hget] at hload
  | ok e =>
    rcases h t e (entry_of_get hget) with he' | ⟨decl, state, state', rfl, he'⟩
    · rw [get_of_entry he']
      simpa [hget] using hload
    · rw [get_of_entry he']
      simpa [hget, TypeEntry.inner?] using hload

/-- A computation on all members of a list gives the same result as one that agrees with it. -/
private theorem mapM_ok {α β ε : Type} {f g : α → Except ε β} (hfg : ∀ x y, f x = .ok y → g x = .ok y)
    {xs : List α} {ys : List β}
    (h : xs.mapM f = .ok ys) : xs.mapM g = .ok ys := by
  induction xs generalizing ys with
  | nil => exact h
  | cons x xs ih =>
    rw [List.mapM_cons] at h ⊢
    cases hx : f x with
    | error e =>
      rw [hx] at h
      cases h
    | ok y =>
      rw [hx] at h
      rw [hfg x y hx]
      cases hxs : xs.mapM f with
      | error e => simp [hxs] at h
      | ok zs =>
        rw [hxs] at h
        rw [ih hxs]
        exact h

private theorem TypesStay.textWithin (h : s.TypesStay s') {depth : Nat} {text : String}
    (htext : s.types.textWithin depth t = .ok text) : s'.types.textWithin depth t = .ok text := by
  induction depth generalizing t text with
  | zero => cases htext
  | succ depth ih =>
    unfold Types.textWithin at htext ⊢
    cases hget : s.types.get t with
    | error f => simp [hget] at htext
    | ok e =>
      rw [hget, ok_bind] at htext
      rcases h t e (entry_of_get hget) with he | ⟨decl, state, state', rfl, he⟩
      · rw [get_of_entry he, ok_bind]
        cases e with
        | primitive | struct => exact htext
        | reference inner =>
          dsimp only at htext ⊢
          cases hinner : s.types.textWithin depth inner with
          | error f => simp [hinner] at htext
          | ok x =>
            rw [hinner] at htext
            rw [ih hinner]
            exact htext
        | function params returns =>
          dsimp only at htext ⊢
          cases hparams : params.mapM (s.types.textWithin depth) with
          | error f => simp [hparams] at htext
          | ok xs =>
            rw [hparams] at htext
            rw [mapM_ok (fun _ _ => ih) hparams]
            rw [ok_bind] at htext ⊢
            split at htext
            · rw [if_pos (by assumption)]
              exact htext
            · rw [if_neg (by assumption)]
              cases hreturns : s.types.textWithin depth returns with
              | error f => simp [hreturns] at htext
              | ok x =>
                rw [hreturns] at htext
                rw [ih hreturns]
                exact htext
      · rw [get_of_entry he, ok_bind]
        exact htext

/-- The text of a type does not change. -/
theorem TypesStay.text (h : s.TypesStay s') {text : String} (htext : s.types.text t = .ok text) :
    s'.types.text t = .ok text :=
  h.textWithin htext

theorem TypesStay.fits {i : Info} (h : s.TypesStay s') (hfits : s.Fits i u) : s'.Fits i u := by
  obtain ⟨t, ht, hassignable⟩ := hfits
  exact ⟨t, ht, h.assignable hassignable⟩

theorem Attainable.stay (h : s.Attainable t) (hstay : s.TypesStay s') : s'.Attainable t := by
  induction h with
  | primitive he hne => exact .primitive (hstay.same he rfl) hne
  | struct he =>
    rcases hstay _ _ he with he' | ⟨_, _, _, _, he'⟩
    · exact .struct he'
    · exact .struct he'
  | reference he _ ih => exact .reference (hstay.same he rfl) ih
  | function he => exact .function (hstay.same he rfl)

/-- The types that are written in a module are attainable. -/
structure Grounded (s : Store) : Prop where
  void : s.Attainable TypeId.void
  functionTypes : ∀ t params returns, s.typeAt? t = some (.function params returns) →
    (∀ p ∈ params, s.Attainable p) ∧ s.Attainable returns
  fields : ∀ t decl fields, s.typeAt? t = some (.struct decl (.resolved fields)) → ∀ f ∈ fields, s.Attainable f.2
  names : ∀ fr f, s.frame? fr = some f → ∀ p ∈ f.types, s.Attainable p.2
  structs : ∀ key r, s.structs.find? key = some r → s.Attainable r.type

/-- A store whose types are new or stay what they were. -/
private theorem Grounded.change (h : s.Grounded) (hstay : s.TypesStay s')
    (hfunction : ∀ t params returns, s'.typeAt? t = some (.function params returns) →
      s.typeAt? t = some (.function params returns) ∨ (∀ p ∈ params, s'.Attainable p) ∧ s'.Attainable returns)
    (hfields : ∀ t decl fields, s'.typeAt? t = some (.struct decl (.resolved fields)) →
      (∃ decl', s.typeAt? t = some (.struct decl' (.resolved fields))) ∨ ∀ f ∈ fields, s'.Attainable f.2)
    (hnames : ∀ fr f, s'.frame? fr = some f → ∀ p ∈ f.types,
      (∃ f', s.frame? fr = some f' ∧ p ∈ f'.types) ∨ s'.Attainable p.2)
    (hstructs : ∀ key r, s'.structs.find? key = some r → s.structs.find? key = some r ∨ s'.Attainable r.type) :
    s'.Grounded where
  void := h.void.stay hstay
  functionTypes t params returns he := by
    rcases hfunction t params returns he with hold | hnew
    · obtain ⟨hparams, hreturns⟩ := h.functionTypes t params returns hold
      exact ⟨fun p hp => (hparams p hp).stay hstay, hreturns.stay hstay⟩
    · exact hnew
  fields t decl fields he := by
    rcases hfields t decl fields he with ⟨decl', hold⟩ | hnew
    · exact fun f hf => (h.fields t decl' fields hold f hf).stay hstay
    · exact hnew
  names fr f hf p hp := by
    rcases hnames fr f hf p hp with ⟨f', hf', hp'⟩ | hnew
    · exact (h.names fr f' hf' p hp').stay hstay
    · exact hnew
  structs key r hr := by
    rcases hstructs key r hr with hold | hnew
    · exact (h.structs key r hold).stay hstay
    · exact hnew

/-- A grounded store stays so, and its types stay what they are. -/
def Stays (s s' : Store) : Prop := s.Grounded → s'.Grounded ∧ s.TypesStay s'

theorem Stays.refl (s : Store) : s.Stays s := fun hs => ⟨hs, .refl s⟩

theorem Stays.trans (h : s.Stays s') (h' : s'.Stays s'') : s.Stays s'' := fun hs =>
  ⟨(h' (h hs).1).1, (h hs).2.trans (h' (h hs).1).2⟩

end Store

/-! ### Actions -/

namespace Action

variable {α β : Type} {s : Store} {a : Action α} {f : α → Action β} {P : α → Store → Prop} {Q : β → Store → Prop}

/-- However an action ends, the store is grounded afterwards and types stay; a result has a property. -/
def Maintains (s : Store) (a : Action α) (P : α → Store → Prop) : Prop :=
  ∀ r s', a.run.run s = (r, s') → s'.Grounded ∧ s.TypesStay s' ∧ ∀ x, r = .ok x → P x s'

theorem Maintains.mono {P' : α → Store → Prop} (h : Maintains s a P) (himp : ∀ x s', s'.Grounded → P x s' → P' x s') :
    Maintains s a P' := by
  intro r s' hrun
  obtain ⟨hs', hstay, hP⟩ := h r s' hrun
  exact ⟨hs', hstay, fun x hx => himp x s' hs' (hP x hx)⟩

theorem Maintains.bind (h : Maintains s a P)
    (hf : ∀ x s', s'.Grounded → s.TypesStay s' → P x s' → Maintains s' (f x) Q) : Maintains s (a >>= f) Q := by
  intro r s'' hrun
  rw [run_bind] at hrun
  rcases ha : a.run.run s with ⟨e | x, s'⟩
  · rw [ha] at hrun
    cases hrun
    obtain ⟨hs', hstay, -⟩ := h _ _ ha
    exact ⟨hs', hstay, nofun⟩
  · rw [ha] at hrun
    obtain ⟨hs', hstay, hP⟩ := h _ _ ha
    obtain ⟨hs'', hstay', hQ⟩ := hf x s' hs' hstay (hP x rfl) r s'' hrun
    exact ⟨hs'', hstay.trans hstay', hQ⟩

theorem maintains_pure {x : α} (hs : s.Grounded) (h : P x s) : Maintains s (pure x) P := by
  intro r s' hrun
  cases hrun
  refine ⟨hs, .refl s, fun y hy => ?_⟩
  cases hy
  exact h

theorem maintains_throw {why : Stop} (hs : s.Grounded) : Maintains s (throw why : Action α) P := by
  intro r s' hrun
  cases hrun
  exact ⟨hs, .refl s, nofun⟩

theorem maintains_refuse {span : Span} {cause : Cause} (hs : s.Grounded) :
    Maintains s (refuse span cause : Action α) P :=
  maintains_throw hs

theorem maintains_fail {g : Fault} (hs : s.Grounded) : Maintains s (fail g : Action α) P := maintains_throw hs

private theorem maintains_get {f : Store → Action β} (h : Maintains s (f s) Q) : Maintains s (get >>= f) Q := h

private theorem maintains_lift {r : Except Fault α} (hs : s.Grounded) (h : ∀ x, r = .ok x → Maintains s (f x) Q) :
    Maintains s (lift r >>= f) Q := by
  cases r with
  | ok x => exact h x rfl
  | error g => exact maintains_fail hs

theorem maintains_fromTypes {read : Types → Except Fault α} (hs : s.Grounded)
    (h : ∀ x, read s.types = .ok x → Maintains s (f x) Q) : Maintains s (fromTypes read >>= f) Q :=
  maintains_lift (f := f) hs h

theorem Reads.maintains (h : a.Reads) (hs : s.Grounded) : Maintains s a fun x s' => s' = s ∧ a.Yields s x s := by
  intro r s' hrun
  have hsame := h s
  rw [hrun] at hsame
  change s' = s at hsame
  subst hsame
  refine ⟨hs, .refl s', fun x hx => ⟨rfl, ?_⟩⟩
  rw [hx] at hrun
  exact hrun

/-- An action whose end is observed. -/
private theorem Maintains.outcome (h : Maintains s a P) :
    Maintains s a.outcome fun r s' => ∀ x, r = .ok x → P x s' := by
  intro r s' hrun
  have hobserved : a.outcome.run.run s = (.ok (a.run.run s).1, (a.run.run s).2) := rfl
  rw [hobserved] at hrun
  cases hrun
  obtain ⟨hs', hstay, hP⟩ := h _ _ rfl
  refine ⟨hs', hstay, fun x hx => ?_⟩
  cases hx
  exact hP

/-! ### Changes of the types -/

private theorem maintains_of_run {x : α} (s' : Store) (hrun : a.run.run s = (.ok x, s')) (hs' : s'.Grounded)
    (hstay : s.TypesStay s') (h : P x s') : Maintains s a P := by
  intro r s'' hrun'
  rw [hrun] at hrun'
  cases hrun'
  refine ⟨hs', hstay, fun y hy => ?_⟩
  cases hy
  exact h

end Action

namespace Store

variable {s s' : Store} {t : TypeId}

/-- The parts of a type that is added are attainable. -/
def PartsAttainable (s : Store) : TypeEntry → Prop
  | .function params returns => (∀ p ∈ params, s.Attainable p) ∧ s.Attainable returns
  | .struct _ (.resolved _) => False
  | _ => True

private theorem typesStay_addType {e : TypeEntry} : s.TypesStay (s.addType e) :=
  fun _ _ he => .inl (entry_addType.mpr (.inl he))

private theorem Grounded.addType {e : TypeEntry} (h : s.Grounded) (he : s.PartsAttainable e) :
    (s.addType e).Grounded := by
  refine h.change typesStay_addType (fun t params returns ht => ?_) (fun t decl fields ht => ?_)
    (fun fr f hf p hp => .inl ⟨f, hf, hp⟩) fun key r hr => .inl hr
  · rcases entry_addType.mp ht with ht | ⟨-, rfl⟩
    · exact .inl ht
    · exact .inr ⟨fun p hp => (he.1 p hp).stay typesStay_addType, he.2.stay typesStay_addType⟩
  · rcases entry_addType.mp ht with ht | ⟨-, rfl⟩
    · exact .inl ⟨decl, ht⟩
    · exact he.elim

/-- Only the state of a struct changes. -/
private theorem withState_cases {state : StructState} {resolving : Stack TypeId} {u : TypeId} {e : TypeEntry}
    (he : (s.withState t state resolving).typeAt? u = some e) :
    s.typeAt? u = some e ∨ ∃ decl old, s.typeAt? u = some (.struct decl old) ∧ e = .struct decl state := by
  unfold typeAt? withState Types.setState at he
  simp only [List.getElem?_modify] at he
  obtain ⟨e', he', heq⟩ := Option.map_eq_some_iff.mp he
  by_cases hu : t = u
  · rw [if_pos hu] at heq
    cases e' with
    | struct decl old => exact .inr ⟨decl, old, he', heq.symm⟩
    | primitive | reference | function =>
      cases heq
      exact .inl he'
  · rw [if_neg hu] at heq
    cases heq
    exact .inl he'

private theorem typesStay_withState {state : StructState} {resolving : Stack TypeId} :
    s.TypesStay (s.withState t state resolving) := by
  intro u e he
  by_cases hu : u = t
  · subst hu
    cases e with
    | struct decl old => exact .inr ⟨decl, old, state, rfl, by rw [entry_withState he, if_pos rfl]⟩
    | primitive | reference | function =>
      refine .inl ?_
      have hentry : s.types.entries[u]? = some _ := he
      simp [typeAt?, withState, Types.setState, hentry]
  · refine .inl ?_
    have hentry : s.types.entries[u]? = some e := he
    simp [typeAt?, withState, Types.setState, hentry, Ne.symm hu]

private theorem Grounded.withState {state : StructState} {resolving : Stack TypeId} (h : s.Grounded)
    (hstate : ∀ fields, state = .resolved fields → ∀ f ∈ fields, s.Attainable f.2) :
    (s.withState t state resolving).Grounded := by
  refine h.change typesStay_withState (fun u params returns hu => ?_) (fun u decl fields hu => ?_)
    (fun fr f hf p hp => .inl ⟨f, hf, hp⟩) fun key r hr => .inl hr
  · rcases withState_cases hu with hu | ⟨_, _, -, heq⟩
    · exact .inl hu
    · cases heq
  · rcases withState_cases hu with hu | ⟨_, _, -, heq⟩
    · exact .inl ⟨decl, hu⟩
    · cases heq
      exact .inr fun f hf => (hstate fields rfl f hf).stay typesStay_withState

/-- A change of other things than types and their names. -/
private theorem Grounded.congr (h : s.Grounded) (hentries : s'.types.entries = s.types.entries)
    (hframes : ∀ fr f, s'.frame? fr = some f → ∀ p ∈ f.types, ∃ f', s.frame? fr = some f' ∧ p ∈ f'.types)
    (hstructs : s'.structs = s.structs) : s'.Grounded := by
  have hsame : ∀ t, s'.typeAt? t = s.typeAt? t := fun t => by rw [typeAt?, typeAt?, hentries]
  refine h.change (fun t e he => .inl ((hsame t).trans he)) (fun t params returns ht => .inl (hsame t ▸ ht))
    (fun t decl fields ht => .inl ⟨decl, hsame t ▸ ht⟩) (fun fr f hf p hp => .inl (hframes fr f hf p hp)) ?_
  intro key r hr
  exact .inl (hstructs ▸ hr)

end Store

namespace Action

variable {α β : Type} {s : Store}

private theorem maintains_intern {e : TypeEntry} {p : TypeEntry → Bool} (hp : ∀ x, p x = true ↔ x = e) (hs : s.Grounded)
    (he : s.PartsAttainable e) : Maintains s (updateTypes (·.intern p e)) fun t s' => s'.typeAt? t = some e := by
  rcases (Types.intern_cases hp : _ ∨ s.types.intern p e = _ ∧ _) with ⟨t, hintern, hentry⟩ | ⟨hintern, -⟩
  · refine maintains_of_run (x := t) s ?_ hs (.refl s) hentry
    change ((Except.ok (s.types.intern p e).1, { s with types := (s.types.intern p e).2 }) :
      Except Stop TypeId × Store) = _
    rw [hintern]
  · refine maintains_of_run (x := s.types.size) (s.addType e) ?_ (hs.addType he) Store.typesStay_addType ?_
    · change ((Except.ok (s.types.intern p e).1, { s with types := (s.types.intern p e).2 }) :
        Except Stop TypeId × Store) = _
      rw [hintern]
      rfl
    · exact Store.entry_addType.mpr (.inr ⟨rfl, rfl⟩)

theorem maintains_reference {inner : TypeId} (hs : s.Grounded) :
    Maintains s (updateTypes (·.reference inner)) fun t s' => s'.typeAt? t = some (.reference inner) :=
  maintains_intern (fun _ => TypeEntry.isReferenceTo_iff) hs trivial

private theorem maintains_functionOf {params : List TypeId} {returns : TypeId} (hs : s.Grounded)
    (hparams : ∀ p ∈ params, s.Attainable p) (hreturns : s.Attainable returns) :
    Maintains s (updateTypes (·.functionOf params returns)) fun t s' => s'.Attainable t :=
  (maintains_intern (fun _ => TypeEntry.isFunctionOf_iff) hs ⟨hparams, hreturns⟩).mono fun _ _ _ he => .function he

private theorem maintains_setState {t : TypeId} {state : StructState} (hs : s.Grounded)
    (hstate : ∀ fields, state = .resolved fields → ∀ f ∈ fields, s.Attainable f.2) :
    Maintains s (setState t state) fun _ _ => True :=
  maintains_of_run (s.withState t state s.types.resolving) rfl (hs.withState hstate) Store.typesStay_withState trivial

private theorem maintains_startResolving {t : TypeId} (hs : s.Grounded) :
    Maintains s (startResolving t) fun _ _ => True :=
  maintains_of_run (s.withState t .resolving (s.types.resolving.push t)) rfl (hs.withState nofun)
    Store.typesStay_withState trivial

private theorem maintains_stopResolving (hs : s.Grounded) : Maintains s stopResolving fun _ _ => True := by
  refine maintains_fromTypes hs fun top _ => ?_
  exact maintains_of_run _ rfl (hs.congr rfl (fun fr f hf p hp => ⟨f, hf, hp⟩) rfl) (fun _ _ he => .inl he) trivial

/-! ### Written types -/

/-- What is found in a chain of frames stands in one of them. -/
theorem exists_of_searchIn {find : Frame → Option α} {chain : List FrameId} {x : α}
    (h : s.frames.searchIn find chain = .ok (some x)) : ∃ fr f, s.frame? fr = some f ∧ find f = some x := by
  induction chain with
  | nil => cases h
  | cons fr chain ih =>
    rw [Frames.searchIn] at h
    cases hget : s.frames.get fr with
    | error g =>
      rw [hget] at h
      cases h
    | ok f =>
      rw [hget, ok_bind] at h
      cases hfind : find f with
      | some y =>
        rw [hfind] at h
        cases h
        exact ⟨fr, f, itemAt_eq_ok_iff.mp hget, hfind⟩
      | none =>
        rw [hfind] at h
        exact ih h

/-- A type that is found by its name is attainable. -/
private theorem attainable_lookupType {fr : FrameId} {name : String} {t : TypeId} (hs : s.Grounded)
    (h : s.frames.lookupType fr name = .ok (some t)) : s.Attainable t := by
  unfold Frames.lookupType Frames.search at h
  cases hchain : s.frames.chain fr with
  | error g =>
    rw [hchain] at h
    cases h
  | ok chain =>
    rw [hchain, ok_bind] at h
    obtain ⟨fr', f, hf, hfind⟩ := exists_of_searchIn h
    exact hs.names fr' f hf _ (Store.mem_of_lookup hfind)

/-- Completing an attainable type gives one. -/
def CompletesAttainable (complete : Span → TypeId → Action TypeId) : Prop :=
  ∀ s span t, s.Grounded → s.Attainable t → Maintains s (complete span t) fun u s' => s'.Attainable u

section

variable {complete : Span → TypeId → Action TypeId} {fr : FrameId}

mutual

private theorem maintains_typeWith (hcomplete : CompletesAttainable complete) (shallow : Bool)
    (t : TypeExpr) {s : Store}
    (hs : s.Grounded) : Maintains s (resolveTypeWith complete fr shallow t) fun u s' => s'.Attainable u := by
  match t with
  | .named span name =>
    rw [resolveTypeWith]
    refine maintains_get (maintains_lift hs fun r hr => ?_)
    cases r with
    | none => exact maintains_refuse hs
    | some u =>
      have hu : s.Attainable u := attainable_lookupType hs hr
      dsimp only
      split
      · exact maintains_pure hs hu
      · exact hcomplete s span u hs hu
  | .reference span inner =>
    rw [resolveTypeWith]
    refine (maintains_typeWith hcomplete true inner hs).bind fun u s₁ hs₁ _ hu => ?_
    intro r s₂ hrun
    obtain ⟨hs₂, hstay, he⟩ := maintains_reference hs₁ r s₂ hrun
    exact ⟨hs₂, hstay, fun v hv => .reference (he v hv) (hu.stay hstay)⟩
  | .function span params returns =>
    rw [resolveTypeWith]
    refine (maintains_typesWith hcomplete params hs).bind fun us s₁ hs₁ _ hus => ?_
    refine (maintains_returnsWith hcomplete returns hs₁).bind fun u s₂ hs₂ hstay hu => ?_
    exact maintains_functionOf hs₂ (fun p hp => (hus p hp).stay hstay) hu

private theorem maintains_typesWith (hcomplete : CompletesAttainable complete) (ts : List TypeExpr) {s : Store}
    (hs : s.Grounded) : Maintains s (resolveTypesWith complete fr ts) fun us s' => ∀ u ∈ us, s'.Attainable u := by
  match ts with
  | [] =>
    rw [resolveTypesWith]
    exact maintains_pure hs (by simp)
  | t :: rest =>
    rw [resolveTypesWith]
    refine (maintains_typeWith hcomplete false t hs).bind fun u s₁ hs₁ _ hu => ?_
    refine (maintains_typesWith hcomplete rest hs₁).bind fun us s₂ hs₂ hstay hus => ?_
    exact maintains_pure hs₂ (List.forall_mem_cons.mpr ⟨hu.stay hstay, hus⟩)

private theorem maintains_returnsWith (hcomplete : CompletesAttainable complete) (t : Option TypeExpr) {s : Store}
    (hs : s.Grounded) : Maintains s (resolveReturnsWith complete fr t) fun u s' => s'.Attainable u := by
  match t with
  | none =>
    rw [resolveReturnsWith]
    exact maintains_pure hs hs.void
  | some t =>
    rw [resolveReturnsWith]
    exact maintains_typeWith hcomplete false t hs

end

end

/-- The fields of a struct get attainable types. -/
private theorem maintains_fields {resolve : TypeExpr → Action TypeId}
    (hresolve : ∀ s t, s.Grounded → Maintains s (resolve t) fun u s' => s'.Attainable u) {fields : List FieldDecl}
    {done : List (String × TypeId)} (hs : s.Grounded) (hdone : ∀ f ∈ done, s.Attainable f.2) :
    Maintains s (resolveFields resolve done fields) fun fs s' => ∀ f ∈ fs, s'.Attainable f.2 := by
  induction fields generalizing s done with
  | nil => exact maintains_pure hs hdone
  | cons field rest ih =>
    rw [resolveFields]
    split
    · exact maintains_refuse hs
    · refine (hresolve s field.type hs).bind fun u s₁ hs₁ hstay hu => ih hs₁ fun f hf => ?_
      rcases List.mem_append.mp hf with hf | hf
      · exact (hdone f hf).stay hstay
      · rw [List.mem_singleton.mp hf]
        exact hu

theorem maintains_body {complete : Span → TypeId → Action TypeId} (hcomplete : CompletesAttainable complete)
    {decl : StructDecl} (hs : s.Grounded) : Maintains s (resolveBody complete decl) fun u s' => s'.Attainable u := by
  unfold resolveBody
  refine maintains_get (maintains_lift hs fun r hr => ?_)
  have hr : s.Attainable r.type := hs.structs _ r (unwrap_eq_ok_iff.mp hr)
  refine (maintains_startResolving hs).bind fun _ s₁ hs₁ hstay₁ _ => ?_
  have hfields : Maintains s₁ (resolveFields (resolveTypeWith complete r.frame false) [] decl.fields)
      fun fs s' => ∀ f ∈ fs, s'.Attainable f.2 :=
    maintains_fields (fun s t hs => maintains_typeWith hcomplete false t hs) hs₁ (by simp)
  refine hfields.outcome.bind fun o s₂ hs₂ hstay₂ ho => ?_
  have hr₂ := (hr.stay hstay₁).stay hstay₂
  split
  · rename_i fields
    refine (maintains_stopResolving hs₂).bind fun _ s₃ hs₃ hstay₃ _ => ?_
    refine (maintains_setState hs₃ ?_).bind fun _ s₄ hs₄ hstay₄ _ => maintains_pure hs₄ ((hr₂.stay hstay₃).stay hstay₄)
    rintro _ ⟨⟩ f hf
    exact (ho fields rfl f hf).stay hstay₃
  · refine (maintains_stopResolving hs₂).bind fun _ s₃ hs₃ _ _ => ?_
    exact (maintains_setState hs₃ (fun _ h => by cases h)).bind fun _ s₄ hs₄ _ _ => maintains_throw hs₄
  · exact maintains_fail hs₂

theorem reads_cycleFrom {t : TypeId} {name : String} : (cycleFrom t name).Reads :=
  reads_get.bind fun _ => (reads_mapM (fun _ => reads_textOf) _).bind fun _ => reads_pure

theorem attainable_completeWithin (depth : Nat) : CompletesAttainable (completeWithin depth) := by
  induction depth with
  | zero => exact fun s span t hs _ => maintains_fail hs
  | succ depth ih =>
    intro s span t hs ht
    rw [completeWithin]
    refine maintains_fromTypes hs fun e _ => ?_
    split
    · exact maintains_body ih hs
    · refine (reads_cycleFrom.maintains hs).bind fun names s' hs' _ _ => maintains_refuse hs'
    · exact maintains_throw hs
    · exact maintains_pure hs ht

theorem maintains_depthBound {f : Nat → Action β} {Q : β → Store → Prop} (h : ∀ depth, Maintains s (f depth) Q) :
    Maintains s (depthBound >>= f) Q :=
  maintains_get (h _)

private theorem maintains_complete {span : Span} {t : TypeId} (hs : s.Grounded) (ht : s.Attainable t) :
    Maintains s (complete span t) fun u s' => s'.Attainable u :=
  maintains_depthBound fun depth => attainable_completeWithin depth s span t hs ht

theorem maintains_type {fr : FrameId} {t : TypeExpr} (hs : s.Grounded) :
    Maintains s (resolveType fr t) fun u s' => s'.Attainable u :=
  maintains_depthBound fun depth => maintains_typeWith (attainable_completeWithin depth) false t hs

/-! ### Declarations -/

private theorem maintains_updateFrames {change : Frames → Except Stop Frames} (hs : s.Grounded)
    (h : ∀ frames, change s.frames = .ok frames → ∀ fr f, frames.frames[fr]? = some f → ∀ p ∈ f.types,
      (∃ f', s.frame? fr = some f' ∧ p ∈ f'.types) ∨ s.Attainable p.2) :
    Maintains s (updateFrames change) fun _ _ => True := by
  refine maintains_get ?_
  cases hchange : change s.frames with
  | error why => exact maintains_throw hs
  | ok frames =>
    refine maintains_of_run ({ s with frames }) rfl ?_ (fun _ _ he => .inl he) trivial
    refine hs.change (fun _ _ he => .inl he) (fun _ _ _ he => .inl he) (fun _ decl _ he => .inl ⟨decl, he⟩) ?_
      fun _ _ hr => .inl hr
    intro fr f hf p hp
    rcases h frames hchange fr f hf p hp with hold | hnew
    · exact .inl hold
    · exact .inr (hnew.stay fun _ _ he => .inl he)

/-- A change of the names of one frame. -/
private theorem types_of_set {fr g : FrameId} {f f' h : Frame} (hf : s.frames.get fr = .ok f)
    (htypes : ∀ p ∈ f'.types, p ∈ f.types ∨ s.Attainable p.2) (hh : (s.frames.frames.set fr f')[g]? = some h) :
    ∀ p ∈ h.types, (∃ h', s.frame? g = some h' ∧ p ∈ h'.types) ∨ s.Attainable p.2 := by
  intro p hp
  rw [List.getElem?_set] at hh
  by_cases hg : fr = g
  · subst hg
    have hlt := (List.getElem?_eq_some_iff.mp (itemAt_eq_ok_iff.mp hf)).1
    rw [if_pos rfl, if_pos hlt] at hh
    cases hh
    rcases htypes p hp with hold | hnew
    · exact .inl ⟨f, itemAt_eq_ok_iff.mp hf, hold⟩
    · exact .inr hnew
  · rw [if_neg hg] at hh
    exact .inl ⟨h, hh, hp⟩

theorem maintains_declare {fr : FrameId} {v : Variable} (hs : s.Grounded) :
    Maintains s (declare fr v) fun _ _ => True := by
  refine maintains_updateFrames hs fun frames hchange g h hh => ?_
  unfold Frames.declare at hchange
  cases hget : s.frames.get fr with
  | error g =>
    rw [hget] at hchange
    cases hchange
  | ok f =>
    rw [hget] at hchange
    simp only [Stop.lift, ok_bind] at hchange
    split at hchange
    · cases hchange
    · cases hchange
      refine types_of_set hget ?_ hh
      exact fun p hp => .inl hp

private theorem maintains_declareType {fr : FrameId} {name : String} {t : TypeId} {span : Span} (hs : s.Grounded)
    (ht : s.Attainable t) : Maintains s (declareType fr name t span) fun _ _ => True := by
  refine maintains_updateFrames hs fun frames hchange g h hh => ?_
  unfold Frames.declareType at hchange
  cases hget : s.frames.get fr with
  | error g =>
    rw [hget] at hchange
    cases hchange
  | ok f =>
    rw [hget] at hchange
    simp only [Stop.lift, ok_bind] at hchange
    split at hchange
    · cases hchange
    · cases hchange
      refine types_of_set hget (fun p hp => ?_) hh
      rcases List.mem_append.mp hp with hp | hp
      · exact .inl hp
      · rw [List.mem_singleton.mp hp]
        exact .inr ht

theorem maintains_nest {fr : FrameId} (hs : s.Grounded) : Maintains s (nest fr) fun _ _ => True := by
  refine maintains_get (maintains_lift hs fun ⟨id, frames⟩ hnest => ?_)
  unfold Frames.nest at hnest
  cases hget : s.frames.get fr with
  | error g =>
    rw [hget] at hnest
    cases hnest
  | ok f =>
    rw [hget, ok_bind] at hnest
    cases hnest
    refine maintains_of_run (s.addFrame (fr :: f.outer)) rfl ?_ (fun _ _ he => .inl he) trivial
    refine hs.congr rfl (fun g h hh p hp => ?_) rfl
    rw [Store.frame?_addFrame] at hh
    split at hh
    · cases hh
      cases hp
    · exact ⟨h, hh, hp⟩

private theorem maintains_updateFunction {key : Span} {change : FunctionRecord → FunctionRecord} (hs : s.Grounded) :
    Maintains s (updateFunction key change) fun _ _ => True :=
  maintains_of_run _ rfl (hs.congr rfl (fun _ f hf _ hp => ⟨f, hf, hp⟩) rfl) (fun _ _ he => .inl he) trivial

/-- The type of a struct gets a record. -/
private theorem maintains_record {key : Span} {t : TypeId} {fr : FrameId} (hs : s.Grounded) (ht : s.Attainable t) :
    Maintains s (modify fun s => { s with structs := s.structs.insert key ⟨t, fr⟩ }) fun _ _ => True := by
  refine maintains_of_run _ rfl ?_ (fun _ _ he => .inl he) trivial
  refine hs.change (fun _ _ he => .inl he) (fun _ _ _ he => .inl he) (fun _ decl _ he => .inl ⟨decl, he⟩)
    (fun _ f hf _ hp => .inl ⟨f, hf, hp⟩) fun key' r hr => ?_
  change (s.structs.insert key ⟨t, fr⟩).find? key' = some r at hr
  rw [Records.find?_insert] at hr
  split at hr
  · cases hr
    exact .inr (ht.stay fun _ _ he => .inl he)
  · exact .inl hr

theorem maintains_registerStruct {fr : FrameId} {decl : StructDecl} (hs : s.Grounded) :
    Maintains s (registerStruct fr decl) fun _ _ => True := by
  refine maintains_get ?_
  split
  · exact maintains_pure hs trivial
  · have hadd : Maintains s (updateTypes (·.addStruct decl)) fun t s' => s'.Attainable t :=
      maintains_of_run (s.addType (.struct decl .unresolved)) rfl (hs.addType trivial) Store.typesStay_addType
        (.struct (Store.entry_addType.mpr (.inr ⟨rfl, rfl⟩)))
    refine hadd.bind fun t s₁ hs₁ _ ht => ?_
    refine (maintains_declareType hs₁ ht).bind fun _ s₂ hs₂ hstay₂ _ => ?_
    have ht₂ := ht.stay hstay₂
    refine (maintains_record hs₂ ht₂).bind fun _ s₃ hs₃ hstay₃ _ => ?_
    split
    · exact maintains_declareType hs₃ (ht₂.stay hstay₃)
    · exact maintains_pure hs₃ trivial

theorem maintains_resolveStruct {fr : FrameId} {decl : StructDecl} (hs : s.Grounded) :
    Maintains s (resolveStruct fr decl) fun _ _ => True := by
  refine (maintains_registerStruct hs).bind fun _ s₁ hs₁ _ _ => maintains_get (maintains_lift hs₁ fun r hr => ?_)
  exact (maintains_complete hs₁ (hs₁.structs _ r (unwrap_eq_ok_iff.mp hr))).mono fun _ _ _ _ => trivial

theorem maintains_registerFunction {fr : FrameId} {header : Header} (hs : s.Grounded) :
    Maintains s (registerFunction fr header) fun _ _ => True := by
  refine maintains_get ?_
  split
  · exact maintains_pure hs trivial
  · refine (maintains_declare hs).bind fun _ s₁ hs₁ _ _ => (maintains_updateFunction hs₁).bind fun _ s₂ hs₂ _ _ => ?_
    split
    · exact maintains_declare hs₂
    · exact maintains_pure hs₂ trivial

private theorem maintains_prototype {fr : FrameId} {declared : Prototype} (hs : s.Grounded) :
    Maintains s (resolvePrototype fr declared) fun t s' => s'.Attainable t := by
  have hparams : Maintains s (resolveTypes fr declared.params) fun us s' => ∀ u ∈ us, s'.Attainable u :=
    maintains_depthBound fun depth => maintains_typesWith (attainable_completeWithin depth) _ hs
  refine hparams.bind fun params s₁ hs₁ _ hparams => ?_
  have hreturns : Maintains s₁ (resolveReturns fr declared.returns) fun u s' => s'.Attainable u :=
    maintains_depthBound fun depth => maintains_returnsWith (attainable_completeWithin depth) _ hs₁
  refine hreturns.bind fun returns s₂ hs₂ hstay hreturns => ?_
  exact maintains_functionOf hs₂ (fun p hp => (hparams p hp).stay hstay) hreturns

theorem maintains_signature {fr : FrameId} {key : Span} {declared : Prototype} (hs : s.Grounded) :
    Maintains s (resolveSignature fr key declared) fun _ _ => True := by
  refine maintains_get ?_
  dsimp only
  split
  · exact maintains_pure hs trivial
  · exact maintains_throw hs
  · refine (maintains_prototype hs).outcome.bind fun r s₁ hs₁ _ _ => ?_
    split
    · exact (maintains_updateFunction hs₁).bind fun _ s₂ hs₂ _ _ => maintains_pure hs₂ trivial
    · exact (maintains_updateFunction hs₁).bind fun _ s₂ hs₂ _ _ => maintains_throw hs₂
    · exact maintains_fail hs₁

end Action

end RainCheck
