import RainCheck.Proofs.Places
import RainCheck.Proofs.Phases

/-!
# Where problems are found

What resolving types leaves behind, in particular if it is refused.
* A problem that is kept with a struct or a function is on record (`Store.recorded`), and whoever asks again gets it.
* An action `Locates` its problems: each one lies at a given place, or is on record, or lies in a
  struct that was not looked at before and has failed with it.  If a problem gets on record, the
  action is refused with it.
* (rules) Every rule of the checker that only resolves types locates its problems at the expression it is about.
-/

namespace RainCheck

/-! ### Problems on record -/

/-- The problem of a struct that has failed. -/
def TypeEntry.failure? : TypeEntry → Option Diagnostic
  | .struct _ (.failed why) => some why
  | _ => none

private theorem TypeEntry.failure?_eq_some {e : TypeEntry} {d : Diagnostic} :
    e.failure? = some d ↔ ∃ decl, e = .struct decl (.failed d) := by
  cases e with
  | struct decl state => cases state <;> simp [failure?]
  | _ => simp [failure?]

/-- The problems that are kept with structs and functions. -/
def Store.recorded (s : Store) : List Diagnostic :=
  s.types.entries.filterMap TypeEntry.failure? ++ s.functions.entries.filterMap fun r => (s.function r.1).failure

namespace Store

variable {s : Store} {d : Diagnostic}

theorem mem_recorded : d ∈ s.recorded ↔
    (∃ id decl, s.typeAt? id = some (.struct decl (.failed d))) ∨ ∃ key, (s.function key).failure = some d := by
  rw [recorded, List.mem_append, List.mem_filterMap, List.mem_filterMap]
  refine or_congr ⟨?_, ?_⟩ ⟨?_, ?_⟩
  · rintro ⟨e, he, hd⟩
    obtain ⟨decl, rfl⟩ := TypeEntry.failure?_eq_some.mp hd
    obtain ⟨id, hid⟩ := List.mem_iff_getElem?.mp he
    exact ⟨id, decl, hid⟩
  · rintro ⟨id, decl, hid⟩
    exact ⟨_, List.mem_of_getElem? hid, rfl⟩
  · rintro ⟨r, -, hd⟩
    exact ⟨r.1, hd⟩
  · rintro ⟨key, hd⟩
    -- a function that keeps a problem has a record
    cases hfind : s.functions.find? key with
    | none =>
      rw [function, hfind] at hd
      cases hd
    | some r =>
      obtain ⟨before, behind, hentries, -⟩ := List.lookup_eq_some_iff.mp hfind
      exact ⟨(key, r), by simp [hentries], hd⟩

theorem recorded_of_failed {id : TypeId} {decl : StructDecl} (h : s.typeAt? id = some (.struct decl (.failed d))) :
    d ∈ s.recorded :=
  mem_recorded.mpr (.inl ⟨id, decl, h⟩)

theorem recorded_of_failure {key : Span} (h : (s.function key).failure = some d) : d ∈ s.recorded :=
  mem_recorded.mpr (.inr ⟨key, h⟩)

end Store

/-! ### What resolving types leaves behind -/

/-- The parts of a struct at which a problem of its fields can be reported. -/
def StructDecl.Spreads (d : StructDecl) (span : Span) : Prop :=
  ∃ f ∈ d.fields, f.span = span ∨ ∃ m ∈ f.type.mentions, m.span = span

theorem StructDecl.Lies.spreads {P : Span → Prop} {d : StructDecl} {span : Span} (h : d.Lies P)
    (hspan : d.Spreads span) :
    P span := by
  obtain ⟨f, hf, rfl | ⟨m, hm, rfl⟩⟩ := hspan
  · exact (h.fields f hf).1
  · exact (h.fields f hf).2.mentions m hm

namespace Store

/-- A registered struct has the type that stands for it. -/
def Linked (s : Store) : Prop :=
  ∀ id decl state r, s.typeAt? id = some (.struct decl state) → s.structs.find? decl.span = some r → r.type = id

/-- A store that types were resolved in since `s₀`; the structs that failed meanwhile failed with problems in `new`. -/
structure Retyped (s₀ : Store) (new : Diagnostic → Prop) (s : Store) : Prop where
  structs : s.structs = s₀.structs
  frames : s.frames = s₀.frames
  functions : s.functions = s₀.functions
  later : ∀ id decl state, s₀.typeAt? id = some (.struct decl state) →
    ∃ state', s.typeAt? id = some (.struct decl state')
  before : ∀ id decl state, s.typeAt? id = some (.struct decl state) → ∃ state₀,
    s₀.typeAt? id = some (.struct decl state₀) ∧ (state = .unresolved → state₀ = .unresolved) ∧
      ∀ d, state = .failed d → state₀ = .failed d ∨ new d

/-- A problem lies in a registered struct that nobody had looked at in `s₀`, and that has failed with it. -/
def Fresh (s₀ : Store) (d : Diagnostic) (s : Store) : Prop :=
  ∃ id decl, s₀.typeAt? id = some (.struct decl .unresolved) ∧ (s₀.structs.find? decl.span).isSome = true ∧
    s.typeAt? id = some (.struct decl (.failed d)) ∧ decl.Spreads d.span

variable {s₀ s : Store} {new : Diagnostic → Prop} {d : Diagnostic}

theorem Retyped.refl (s : Store) : s.Retyped new s where
  structs := rfl
  frames := rfl
  functions := rfl
  later _ _ state h := ⟨state, h⟩
  before _ _ state h := ⟨state, h, id, fun _ => .inl⟩

/-- The types are changed in a way that leaves the structs alone. -/
private theorem Retyped.congr {types : Types} (h : s₀.Retyped new s)
    (hsame : ∀ (id : TypeId) decl state, types.entries[id]? = some (.struct decl state) ↔
      s.typeAt? id = some (.struct decl state)) :
    s₀.Retyped new { s with types } where
  structs := h.structs
  frames := h.frames
  functions := h.functions
  later id decl state hid := by
    obtain ⟨state', hid'⟩ := h.later id decl state hid
    exact ⟨state', (hsame id decl state').mpr hid'⟩
  before id decl state hid := h.before id decl state ((hsame id decl state).mp hid)

private theorem Retyped.mono {new' : Diagnostic → Prop} (h : s₀.Retyped new s) (himp : ∀ d, new d → new' d) :
    s₀.Retyped new' s :=
  { h with
    before := fun id decl state hid => by
      obtain ⟨state₀, hid₀, hunresolved, hfailed⟩ := h.before id decl state hid
      exact ⟨state₀, hid₀, hunresolved, fun d hd => (hfailed d hd).imp_right (himp d)⟩ }

theorem Retyped.linked (h : s₀.Retyped new s) (hlinked : s₀.Linked) : s.Linked := fun id decl state r he hr => by
  obtain ⟨state₀, he₀, -⟩ := h.before id decl state he
  exact hlinked id decl state₀ r he₀ (h.structs ▸ hr)

theorem Retyped.mem_recorded (h : s₀.Retyped new s) (hd : d ∈ s.recorded) : d ∈ s₀.recorded ∨ new d := by
  rcases Store.mem_recorded.mp hd with ⟨id, decl, he⟩ | ⟨key, hkey⟩
  · obtain ⟨state₀, he₀, -, hfailed⟩ := h.before id decl _ he
    exact (hfailed d rfl).imp_left fun heq => recorded_of_failed (heq ▸ he₀)
  · rw [function, h.functions] at hkey
    exact .inl (recorded_of_failure hkey)

/-- The state of a struct is changed. -/
private theorem typeAt?_setState (s : Store) (id : TypeId) (state : StructState)
    (resolving : Stack TypeId) (j : TypeId) :
    ({ s with types := { s.types.setState id state with resolving } } : Store).typeAt? j =
      if j = id then
        (s.typeAt? j).map fun | .struct decl _ => .struct decl state | entry => entry
      else s.typeAt? j := by
  unfold typeAt? Types.setState
  simp only [List.getElem?_modify]
  by_cases hj : j = id
  · simp only [hj, if_true]
    rfl
  · simp [hj, Ne.symm hj]

private theorem Retyped.setState (h : s₀.Retyped new s) {id : TypeId} {state : StructState} (resolving : Stack TypeId)
    (hstate : state ≠ .unresolved) (hnew : ∀ d, state = .failed d → new d) :
    s₀.Retyped new { s with types := { s.types.setState id state with resolving } } where
  structs := h.structs
  frames := h.frames
  functions := h.functions
  later j decl old hj := by
    obtain ⟨state', hj'⟩ := h.later j decl old hj
    rw [typeAt?_setState, hj']
    split
    · exact ⟨state, rfl⟩
    · exact ⟨state', rfl⟩
  before j decl state' hj := by
    rw [typeAt?_setState] at hj
    split at hj
    · obtain ⟨e, he, heq⟩ := Option.map_eq_some_iff.mp hj
      cases e with
      | struct decl' old =>
        cases heq
        obtain ⟨state₀, hj₀, -⟩ := h.before j decl old he
        exact ⟨state₀, hj₀, fun hunresolved => absurd hunresolved hstate, fun d hd => .inr (hnew d hd)⟩
      | _ => cases heq
    · exact h.before j decl state' hj

end Store

/-! ### Partial correctness -/

namespace Action

variable {α β : Type} {I : Store → Prop} {Q : α → Store → Prop} {Q' : β → Store → Prop} {R : Diagnostic → Store → Prop}
  {a : Action α} {f : α → Action β}

/-- From a store such that `I`, an action gives a result such that `Q`, or refuses such that `R`, or raises a fault. -/
def Triple (I : Store → Prop) (a : Action α) (Q : α → Store → Prop) (R : Diagnostic → Store → Prop) : Prop :=
  ∀ s, I s →
    match a.run.run s with
    | (.ok x, s') => Q x s'
    | (.error (.refused d), s') => R d s'
    | (.error (.fault _), _) => True

theorem Triple.bind (h : Triple I a Q R) (hf : ∀ x, Triple (Q x) (f x) Q' R) : Triple I (a >>= f) Q' R := by
  intro s hs
  have hfirst := h s hs
  rw [run_bind]
  rcases ha : a.run.run s with ⟨(d | g) | x, s'⟩ <;> rw [ha] at hfirst
  · exact hfirst
  · trivial
  · exact hf x s' hfirst

theorem Triple.mono {I' : Store → Prop} {R' : Diagnostic → Store → Prop} {Q'' : α → Store → Prop} (h : Triple I a Q R)
    (hI : ∀ s, I' s → I s) (hQ : ∀ x s, Q x s → Q'' x s) (hR : ∀ d s, R d s → R' d s) : Triple I' a Q'' R' := by
  intro s hs
  have hrun := h s (hI s hs)
  rcases ha : a.run.run s with ⟨(d | g) | x, s'⟩ <;> rw [ha] at hrun
  · exact hR d s' hrun
  · trivial
  · exact hQ x s' hrun

theorem Triple.start {s : Store} (h : Triple I a Q R) (hs : I s) : Triple (· = s) a Q R := fun _ heq => h _ (heq ▸ hs)

/-- An action whose end is observed is not refused. -/
theorem triple_outcome {R' : Diagnostic → Store → Prop} (h : Triple I a Q R) :
    Triple I a.outcome (fun r s =>
      match r with
      | .ok x => Q x s
      | .error (.refused d) => R d s
      | .error (.fault _) => True) R' := by
  intro s hs
  have hend := h s hs
  rw [show a.outcome.run.run s = (.ok (a.run.run s).1, (a.run.run s).2) from rfl]
  rcases ha : a.run.run s with ⟨(d | g) | x, s'⟩ <;> rw [ha] at hend <;> exact hend

theorem triple_get {f : Store → Action β} (h : ∀ s, I s → Triple (· = s) (f s) Q' R) : Triple I (get >>= f) Q' R :=
  fun s hs => h s hs s rfl

theorem triple_lift {r : Except Fault α} : Triple I (lift r) (fun x s => I s ∧ r = .ok x) R := by
  cases r with
  | ok x => exact fun s hs => ⟨hs, rfl⟩
  | error g => exact fun _ _ => trivial

theorem triple_and {p : Prop} (h : p → Triple I a Q R) : Triple (fun s => I s ∧ p) a Q R := fun s hs => h hs.2 s hs.1

/-! ### Locating problems -/

/--
An action that only resolves types.  If it is refused, then with a problem that lies at a place such that `P` holds, or
that was on record, or that is fresh; and no other problem gets on record.
-/
def Locates (P : Span → Prop) (Q : α → Prop) (a : Action α) : Prop :=
  ∀ s₀ : Store, s₀.Linked → Triple (s₀.Retyped fun _ => False) a (fun x s => s₀.Retyped (fun _ => False) s ∧ Q x)
    fun d s => s₀.Retyped (· = d) s ∧ (P d.span ∨ d ∈ s₀.recorded ∨ s₀.Fresh d s)

variable {P : Span → Prop} {Q : α → Prop} {Q' : β → Prop}

theorem Locates.bind (h : Locates P Q a) (hf : ∀ x, Q x → Locates P Q' (f x)) : Locates P Q' (a >>= f) := by
  intro s₀ hlinked
  refine (h s₀ hlinked).bind fun x s hs => ?_
  exact hf x hs.2 s₀ hlinked s hs.1

theorem Locates.imp {P' : Span → Prop} {Q'' : α → Prop} (h : Locates P Q a) (hP : ∀ span, P span → P' span)
    (hQ : ∀ x, Q x → Q'' x) : Locates P' Q'' a := fun s₀ hlinked =>
  (h s₀ hlinked).mono (fun _ h => h) (fun x _ h => ⟨h.1, hQ x h.2⟩) fun _ _ h => ⟨h.1, h.2.imp_left (hP _)⟩

theorem locates_pure {x : α} (h : Q x) : Locates P Q (pure x) := fun _ _ _ hs => ⟨hs, h⟩

theorem locates_refuse {span : Span} {cause : Cause} (h : P span) : Locates P Q (refuse span cause) :=
  fun _ _ _ hs => ⟨hs.mono fun _ h => h.elim, .inl h⟩

theorem locates_fail {g : Fault} : Locates P Q (fail g) := fun _ _ _ _ => trivial

theorem locates_lift {r : Except Fault α} : Locates P (fun x => r = .ok x) (lift r) := by
  cases r with
  | ok x => exact locates_pure rfl
  | error g => exact locates_fail

theorem locates_get : Locates P (fun _ => True) (get : Action Store) := fun _ _ _ hs => ⟨hs, trivial⟩

theorem locates_fromTypes {read : Types → Except Fault α} : Locates P (fun _ => True) (fromTypes read) :=
  locates_get.bind fun _ _ => locates_lift.imp (fun _ h => h) fun _ _ => trivial

theorem locates_textOf {t : TypeId} : Locates P (fun _ => True) (textOf t) := locates_fromTypes

private theorem locates_mapM {g : β → Action α} (h : ∀ x, Locates P (fun _ => True) (g x)) (xs : List β) :
    Locates P (fun _ => True) (xs.mapM g) := by
  induction xs with
  | nil => exact locates_pure trivial
  | cons x xs ih =>
    rw [List.mapM_cons]
    exact (h x).bind fun _ _ => ih.bind fun _ _ => locates_pure trivial

/-- What stands behind a refusal does not matter. -/
theorem locates_refuse_bind {span : Span} {cause : Cause} (h : P span) :
    Locates P Q' ((refuse span cause : Action α) >>= f) :=
  (locates_refuse (Q := fun _ => False) h).bind fun _ hx => hx.elim

/-! ### Written types -/

/-- A type without fields is found or added. -/
private theorem locates_intern {e : TypeEntry} {p : TypeEntry → Bool} (hp : ∀ x, p x = true ↔ x = e)
    (he : e.struct? = none) :
    Locates P (fun _ => True) (updateTypes (·.intern p e)) := by
  intro s₀ hlinked s hs
  change s₀.Retyped _ { s with types := (s.types.intern p e).2 } ∧ True
  refine ⟨?_, trivial⟩
  rcases (Types.intern_cases hp : _ ∨ s.types.intern p e = _ ∧ _) with ⟨id, hintern, -⟩ | ⟨hintern, -⟩
  · rw [hintern]
    exact hs
  · rw [hintern]
    refine hs.congr fun id decl state => Store.entry_addType.trans (or_iff_left ?_)
    rintro ⟨-, rfl⟩
    cases he

theorem locates_reference {t : TypeId} : Locates P (fun _ => True) (updateTypes (·.reference t)) :=
  locates_intern (fun _ => TypeEntry.isReferenceTo_iff) rfl

private theorem locates_functionOf {params : List TypeId} {returns : TypeId} :
    Locates P (fun _ => True) (updateTypes (·.functionOf params returns)) :=
  locates_intern (fun _ => TypeEntry.isFunctionOf_iff) rfl

section

variable {complete : Span → TypeId → Action TypeId} {fr : FrameId}

mutual

private theorem locates_typeWith (hc : ∀ use id, P use → Locates P (fun _ => True) (complete use id)) (shallow : Bool)
    (t : TypeExpr) (ht : ∀ m ∈ t.mentions, P m.span) :
    Locates P (fun _ => True) (resolveTypeWith complete fr shallow t) := by
  match t with
  | .named span name =>
    have hspan : P span := ht (.typeName span) (by simp [TypeExpr.mentions])
    rw [resolveTypeWith]
    refine locates_get.bind fun s _ => locates_lift.bind fun r _ => ?_
    cases r with
    | none => exact locates_refuse hspan
    | some id =>
      dsimp only
      split
      · exact locates_pure trivial
      · exact hc span id hspan
  | .reference span inner =>
    rw [resolveTypeWith]
    exact (locates_typeWith hc true inner ht).bind fun _ _ => locates_reference
  | .function span params returns =>
    rw [resolveTypeWith]
    refine (locates_typesWith hc params fun m hm => ht m (by simp [TypeExpr.mentions, hm])).bind fun _ _ => ?_
    refine (locates_returnsWith hc returns fun m hm => ht m (by simp [TypeExpr.mentions, hm])).bind fun _ _ => ?_
    exact locates_functionOf

private theorem locates_typesWith (hc : ∀ use id, P use → Locates P (fun _ => True) (complete use id))
    (ts : List TypeExpr)
    (hts : ∀ m ∈ TypeExpr.mentionsAll ts, P m.span) : Locates P (fun _ => True) (resolveTypesWith complete fr ts) := by
  match ts with
  | [] =>
    rw [resolveTypesWith]
    exact locates_pure trivial
  | t :: rest =>
    rw [resolveTypesWith]
    refine (locates_typeWith hc false t fun m hm => hts m (by simp [TypeExpr.mentionsAll, hm])).bind fun _ _ => ?_
    refine (locates_typesWith hc rest fun m hm => hts m (by simp [TypeExpr.mentionsAll, hm])).bind fun _ _ => ?_
    exact locates_pure trivial

private theorem locates_returnsWith (hc : ∀ use id, P use → Locates P (fun _ => True) (complete use id))
    (t : Option TypeExpr)
    (ht : ∀ m ∈ TypeExpr.optionMentions t, P m.span) :
    Locates P (fun _ => True) (resolveReturnsWith complete fr t) := by
  match t with
  | some t =>
    rw [resolveReturnsWith]
    exact locates_typeWith hc false t ht
  | none =>
    rw [resolveReturnsWith]
    exact locates_pure trivial

end

private theorem locates_fields {resolve : TypeExpr → Action TypeId} {fields : List FieldDecl}
    (hresolve : ∀ f ∈ fields, Locates P (fun _ => True) (resolve f.type)) (hfields : ∀ f ∈ fields, P f.span)
    (done : List (String × TypeId)) : Locates P (fun _ => True) (resolveFields resolve done fields) := by
  induction fields generalizing done with
  | nil => exact locates_pure trivial
  | cons f rest ih =>
    unfold resolveFields
    have hrest : ∀ done, Locates P (fun _ => True) (resolveFields resolve done rest) :=
      ih (fun g hg => hresolve g (List.mem_cons_of_mem _ hg)) fun g hg => hfields g (List.mem_cons_of_mem _ hg)
    split
    · exact locates_refuse_bind (hfields f List.mem_cons_self)
    · exact (hresolve f List.mem_cons_self).bind fun _ _ => hrest _

/-! ### Structs -/

variable {s₀ : Store} {γ : Type} {K : γ → Store → Prop} {E : Diagnostic → Store → Prop}

theorem triple_fromTypes {J : Store → Prop} {read : Types → Except Fault α} {g : α → Action γ}
    (h : ∀ s x, J s → read s.types = .ok x → Triple (· = s) (g x) K E) : Triple J (fromTypes read >>= g) K E := by
  refine Triple.bind (Q := fun x s => J s ∧ read s.types = .ok x) ?_ fun x s hs => h s x hs.1 hs.2 s rfl
  exact triple_get fun s hs => triple_lift.mono (fun _ h => h) (fun x s' h => by
    obtain ⟨rfl, hx⟩ := h
    exact ⟨hs, hx⟩) fun _ _ h => h

/-- The struct that was started last is not resolved any more. -/
private theorem triple_stopResolving {J : Store → Prop}
    (h : ∀ (s : Store) resolving, J s → J { s with types := { s.types with resolving } }) :
    Triple J stopResolving (fun _ => J) E :=
  triple_fromTypes fun _ _ hs _ s' hs' => h s' _ (hs' ▸ hs)

/-- A struct whose resolution is begun is resolved, or its problem is on record, or fresh. -/
private theorem resolveBody_triple
    (hc : ∀ (P : Span → Prop) use id, P use → Locates P (fun _ => True) (complete use id))
    (hlinked : s₀.Linked) {type : TypeId} {decl : StructDecl} :
    Triple (fun s => s₀.Retyped (fun _ => False) s ∧ s.typeAt? type = some (.struct decl .unresolved))
      (resolveBody complete decl) (fun _ s => s₀.Retyped (fun _ => False) s)
      fun d s => s₀.Retyped (· = d) s ∧ (d ∈ s₀.recorded ∨ s₀.Fresh d s) := by
  unfold resolveBody
  refine triple_get fun s ⟨hs, he⟩ => ?_
  -- a struct that is unresolved now was so from the start
  obtain ⟨state₀, he₀, hunresolved, -⟩ := hs.before type decl _ he
  obtain rfl := hunresolved rfl
  refine triple_lift.bind fun r => triple_and fun hunwrap => ?_
  have hr : s.structs.find? decl.span = some r := unwrap_eq_ok_iff.mp hunwrap
  have hr₀ : s₀.structs.find? decl.span = some r := hs.structs ▸ hr
  obtain rfl : r.type = type := hlinked _ _ _ r he₀ hr₀
  have hstart : Triple (· = s) (startResolving r.type) (fun _ s => s₀.Retyped (fun _ => False) s)
      fun d s => s₀.Retyped (· = d) s ∧ (d ∈ s₀.recorded ∨ s₀.Fresh d s) := by
    rintro _ rfl
    exact hs.setState _ (by simp) (by simp)
  have hfields : Locates decl.Spreads (fun _ => True)
      (resolveFields (resolveTypeWith complete r.frame false) [] decl.fields) :=
    locates_fields (fun f hf => locates_typeWith (hc _) false f.type fun m hm => ⟨f, hf, .inr ⟨m, hm, rfl⟩⟩)
      (fun f hf => ⟨f, hf, .inl rfl⟩) []
  refine hstart.bind fun _ => (triple_outcome (hfields s₀ hlinked)).bind fun result => ?_
  cases result with
  | ok fields =>
    refine Triple.bind
      (triple_stopResolving fun s' resolving h => ⟨h.1.congr fun _ _ _ => Iff.rfl, trivial⟩) fun _ => ?_
    refine Triple.bind (Q := fun _ s => s₀.Retyped (fun _ => False) s) ?_ fun _ _ h => h
    exact fun s' hs' => hs'.1.setState s'.types.resolving (by simp) (by simp)
  | error stop =>
    cases stop with
    | fault g => exact fun _ _ => trivial
    | refused why =>
      have hstop : ∀ (s' : Store) resolving, s₀.Retyped (· = why) s' ∧
          (decl.Spreads why.span ∨ why ∈ s₀.recorded ∨ s₀.Fresh why s') →
          s₀.Retyped (· = why) { s' with types := { s'.types with resolving } } ∧
            (decl.Spreads why.span ∨ why ∈ s₀.recorded ∨
            s₀.Fresh why { s' with types := { s'.types with resolving } }) :=
        fun s' resolving h => ⟨h.1.congr fun _ _ _ => Iff.rfl, h.2⟩
      refine Triple.bind (triple_stopResolving hstop) fun _ => ?_
      refine Triple.bind (Q := fun _ s => s₀.Retyped (· = why) s ∧ (why ∈ s₀.recorded ∨ s₀.Fresh why s)) ?_
        fun _ _ h => h
      rintro s' ⟨hs', hwhy⟩
      refine ⟨hs'.setState s'.types.resolving (by simp) (by simp), ?_⟩
      have hentry := Store.typeAt?_setState s' r.type (.failed why) s'.types.resolving
      rcases hwhy with hspan | hrecorded | ⟨id, U, hU, hregistered, hfailed, hspan⟩
      · -- the problem lies in this struct, which fails with it now
        obtain ⟨state', he'⟩ := hs'.later _ _ _ he₀
        exact .inr ⟨r.type, decl, he₀, by rw [hr₀]; rfl, (hentry r.type).trans (by simp [he']), hspan⟩
      · exact .inl hrecorded
      · refine .inr ⟨id, U, hU, hregistered, (hentry id).trans ?_, hspan⟩
        rw [hfailed]
        split <;> rfl

private theorem locates_cycleFrom {type : TypeId} {name : String} : Locates P (fun _ => True) (cycleFrom type name) :=
  locates_get.bind fun _ _ => (locates_mapM (fun _ => locates_textOf) _).bind fun _ _ => locates_pure trivial

private theorem locates_completeWithin (depth : Nat) (P : Span → Prop) (use : Span) (id : TypeId) (huse : P use) :
    Locates P (fun _ => True) (completeWithin depth use id) := by
  induction depth generalizing P use id with
  | zero => exact locates_fail
  | succ depth ih =>
    intro s₀ hlinked
    unfold completeWithin
    refine triple_fromTypes fun s e hs hget => ?_
    have he : s.typeAt? id = some e := itemAt_eq_ok_iff.mp hget
    have hsame : ∀ {a : Action TypeId}, Locates P (fun _ => True) a → Triple (· = s) a
        (fun _ s => s₀.Retyped (fun _ => False) s ∧ True)
        fun d s => s₀.Retyped (· = d) s ∧ (P d.span ∨ d ∈ s₀.recorded ∨ s₀.Fresh d s) := fun ha =>
      (ha s₀ hlinked).start hs
    split
    · rename_i decl
      exact (resolveBody_triple ih hlinked).mono (by rintro _ rfl; exact ⟨hs, he⟩) (fun _ _ h => ⟨h, trivial⟩)
        fun d s' h => ⟨h.1, .inr h.2⟩
    · exact hsame (locates_cycleFrom.bind fun _ _ => locates_refuse huse)
    · rename_i decl why
      rintro _ rfl
      obtain ⟨state₀, he₀, -, hfailed⟩ := hs.before id decl _ he
      rcases hfailed why rfl with rfl | hfalse
      · exact ⟨hs.mono fun _ h => h.elim, .inr (.inl (Store.recorded_of_failed he₀))⟩
      · exact hfalse.elim
    · exact hsame (locates_pure trivial)

end

private theorem locates_depthBound {f : Nat → Action β} (h : ∀ depth, Locates P Q' (f depth)) :
    Locates P Q' (depthBound >>= f) := by
  have hbound : Locates P (fun _ => True) depthBound := locates_get.bind fun _ _ => locates_pure trivial
  exact hbound.bind fun depth _ => h depth

theorem locates_complete {use : Span} {type : TypeId} (huse : P use) : Locates P (fun _ => True) (complete use type) :=
  locates_depthBound fun depth => locates_completeWithin depth P use type huse

theorem locates_resolveType {fr : FrameId} {t : TypeExpr} (ht : ∀ m ∈ t.mentions, P m.span) :
    Locates P (fun _ => True) (resolveType fr t) :=
  locates_depthBound fun depth => locates_typeWith (locates_completeWithin depth P) false t ht

/-- A struct that is not being resolved is resolved, or its problem is on record, or fresh. -/
theorem complete_triple {s₀ : Store} {use : Span} {type : TypeId} {decl : StructDecl} {state : StructState}
    (hlinked : s₀.Linked) (he : s₀.typeAt? type = some (.struct decl state)) (hstate : state ≠ .resolving) :
    Triple (· = s₀) (complete use type) (fun _ s => s₀.Retyped (fun _ => False) s)
      fun d s => s₀.Retyped (· = d) s ∧ (d ∈ s₀.recorded ∨ s₀.Fresh d s) := by
  refine triple_get fun s hs => ?_
  subst hs
  change Triple _ (completeWithin (2 * s.types.size + 1 + 1) use type) _ _
  unfold completeWithin
  refine triple_fromTypes fun s' e hs' hget => ?_
  subst hs'
  obtain rfl : e = .struct decl state := Option.some.inj ((itemAt_eq_ok_iff.mp hget).symm.trans he)
  cases state with
  | unresolved =>
    have hstart : ∀ s, s = s' → s'.Retyped (fun _ => False) s ∧ s.typeAt? type = some (.struct decl .unresolved) := by
      rintro _ rfl
      exact ⟨.refl _, he⟩
    exact (resolveBody_triple (locates_completeWithin _) hlinked).mono hstart (fun _ _ h => h) fun _ _ h => h
  | resolving => exact absurd rfl hstate
  | resolved fields => exact fun _ hs => hs ▸ .refl _
  | failed why =>
    rintro _ rfl
    exact ⟨.refl _, .inl (Store.recorded_of_failed he)⟩

/-- A problem with the type of a function lies in its declared types. -/
theorem locates_resolvePrototype {fr : FrameId} {declared : Prototype} (hdeclared : ∀ m ∈ declared.mentions, P m.span) :
    Locates P (fun _ => True) (resolvePrototype fr declared) := by
  have hparams : ∀ m ∈ TypeExpr.mentionsAll declared.params, P m.span := fun m hm =>
    hdeclared m (List.mem_append_left _ hm)
  have hreturns : ∀ m ∈ TypeExpr.optionMentions declared.returns, P m.span := fun m hm =>
    hdeclared m (List.mem_append_right _ hm)
  refine (locates_depthBound fun depth => locates_typesWith (locates_completeWithin depth P) _ hparams).bind
    fun _ _ => ?_
  refine (locates_depthBound fun depth => locates_returnsWith (locates_completeWithin depth P) _ hreturns).bind
    fun _ _ => ?_
  exact locates_functionOf

end Action

end RainCheck
