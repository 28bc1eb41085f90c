import RainCheck.Proofs.Faults
import RainCheck.Resolve

/-!
# How actions end

`Ends` says how an action on the store ends: with a result or by refusing the program, but never with a fault.  Its
rules follow the steps of an action, so that a whole action is treated one step after the other.  `Yields` says the
same about one result: it takes apart an action that is known to give it.
-/

namespace RainCheck.Action

variable {α β : Type} {s : Store}

/--
An action, run on a store, gives a result such that `done` holds of it and of the store afterwards, or refuses the
program such that `refused` holds.  It raises no fault.
-/
def Ends (a : Action α) (s : Store) (done : α → Store → Prop) (refused : Diagnostic → Store → Prop) : Prop :=
  match a.run.run s with
  | (.ok x, s') => done x s'
  | (.error (.refused d), s') => refused d s'
  | (.error (.fault _), _) => False

variable {a : Action α} {f : α → Action β} {done : α → Store → Prop} {next : β → Store → Prop}
  {refused : Diagnostic → Store → Prop}

theorem Ends.mono {done' : α → Store → Prop} {refused' : Diagnostic → Store → Prop} (h : a.Ends s done refused)
    (hdone : ∀ x s', done x s' → done' x s') (hrefused : ∀ d s', refused d s' → refused' d s') :
    a.Ends s done' refused' := by
  unfold Ends at h ⊢
  split at h <;> simp_all

/-- The second one of two actions is run if the first one gives a result. -/
theorem run_bind (a : Action α) (f : α → Action β) (s : Store) : (a >>= f).run.run s =
    match a.run.run s with
    | (.ok x, s') => (f x).run.run s'
    | (.error e, s') => (.error e, s') := by
  simp only [ExceptT.run_bind, StateT.run_bind]
  rcases a.run.run s with ⟨x | x, s'⟩ <;> rfl

theorem ends_bind : (a >>= f).Ends s next refused ↔ a.Ends s (fun x s' => (f x).Ends s' next refused) refused := by
  unfold Ends
  rw [run_bind]
  rcases a.run.run s with ⟨x | x, s'⟩
  · cases x <;> simp
  · simp

theorem Ends.bind (h : a.Ends s done refused) (hf : ∀ x s', done x s' → (f x).Ends s' next refused) :
    (a >>= f).Ends s next refused :=
  ends_bind.mpr (h.mono hf fun _ _ h => h)

/-! ### Rules of the steps -/

@[simp] theorem ends_pure {x : α} : (pure x : Action α).Ends s done refused ↔ done x s := Iff.rfl

@[simp] theorem ends_refuse {span : Span} {cause : Cause} :
    (refuse span cause : Action α).Ends s done refused ↔ refused ⟨span, cause⟩ s := Iff.rfl

@[simp] theorem ends_throw {d : Diagnostic} :
    (throw (.refused d) : Action α).Ends s done refused ↔ refused d s := Iff.rfl

@[simp] theorem ends_get {done : Store → Store → Prop} : (get : Action Store).Ends s done refused ↔ done s s := Iff.rfl

@[simp] theorem ends_modify {change : Store → Store} {done : PUnit → Store → Prop} :
    (modify change : Action PUnit).Ends s done refused ↔ done ⟨⟩ (change s) := Iff.rfl

@[simp] theorem ends_lift {x : α} : (lift (.ok x)).Ends s done refused ↔ done x s := Iff.rfl

theorem ends_fromTypes {read : Types → Except Fault α} {x : α} (h : read s.types = .ok x) :
    (fromTypes read).Ends s done refused ↔ done x s := by
  unfold fromTypes
  rw [ends_bind, ends_get, h, ends_lift]

@[simp] theorem ends_updateTypes {change : Types → α × Types} :
    (updateTypes change).Ends s done refused ↔
      done (change s.types).1 { s with types := (change s.types).2 } := Iff.rfl

@[simp] theorem ends_updateFunction {key : Span} {change : FunctionRecord → FunctionRecord}
    {done : Unit → Store → Prop} :
    (updateFunction key change).Ends s done refused ↔
      done () { s with functions := s.functions.insert key (change (s.function key)) } := Iff.rfl

/-- An action whose end is observed ends; what it does in both cases is told by how it ends. -/
theorem Ends.outcome {refused' : Diagnostic → Store → Prop} (h : a.Ends s done refused) :
    a.outcome.Ends s (fun r s' => (∃ x, r = .ok x ∧ done x s') ∨ ∃ d, r = .error (.refused d) ∧ refused d s')
      refused' := by
  have hrun : a.outcome.run.run s = (.ok (a.run.run s).1, (a.run.run s).2) := rfl
  unfold Ends at h ⊢
  rw [hrun]
  rcases hs : a.run.run s with ⟨x | x, s'⟩
  · rw [hs] at h
    cases x with
    | refused d => exact .inr ⟨d, rfl, h⟩
    | fault f => exact h.elim
  · rw [hs] at h
    exact .inl ⟨x, rfl, h⟩

/-! ### Actions that give a result -/

/-- An action, run on a store, gives a result and leaves a store behind. -/
def Yields (a : Action α) (s : Store) (x : α) (s' : Store) : Prop := a.run.run s = (.ok x, s')

section

variable {s' s'' : Store} {x : α} {y : β}

theorem yields_bind : (a >>= f).Yields s y s'' ↔ ∃ x s', a.Yields s x s' ∧ (f x).Yields s' y s'' := by
  unfold Yields
  rw [run_bind]
  constructor
  · intro h
    rcases ha : a.run.run s with ⟨e | x, s'⟩
    · rw [ha] at h
      cases h
    · rw [ha] at h
      exact ⟨x, s', rfl, h⟩
  · rintro ⟨x, s', ha, h⟩
    rw [ha]
    exact h

/-- What is known about the end of an action holds of the result that it gives. -/
theorem Ends.yielded (h : a.Ends s done refused) (hyields : a.Yields s x s') : done x s' := by
  unfold Ends at h
  rw [show a.run.run s = (.ok x, s') from hyields] at h
  exact h

@[simp] theorem yields_pure {x' : α} : (pure x' : Action α).Yields s x s' ↔ x' = x ∧ s = s' := by
  change ((Except.ok x', s) : Except Stop α × Store) = (.ok x, s') ↔ _
  simp

@[simp] theorem yields_refuse {span : Span} {cause : Cause} : ¬(refuse span cause : Action α).Yields s x s' := nofun

@[simp] theorem yields_fail {g : Fault} : ¬(fail g : Action α).Yields s x s' := nofun

@[simp] theorem yields_get {r : Store} : (get : Action Store).Yields s r s' ↔ s = r ∧ s = s' := by
  change ((Except.ok s, s) : Except Stop Store × Store) = (.ok r, s') ↔ _
  simp

@[simp] theorem yields_lift {r : Except Fault α} : (lift r).Yields s x s' ↔ r = .ok x ∧ s = s' := by
  cases r with
  | ok a => exact yields_pure.trans (by simp)
  | error g => exact iff_of_false yields_fail (by simp)

@[simp] theorem yields_fromTypes {read : Types → Except Fault α} :
    (fromTypes read).Yields s x s' ↔ read s.types = .ok x ∧ s = s' := by
  unfold fromTypes
  rw [yields_bind]
  simp [and_comm]

@[simp] theorem yields_updateTypes {change : Types → α × Types} :
    (updateTypes change).Yields s x s' ↔
      (change s.types).1 = x ∧ { s with types := (change s.types).2 } = s' := by
  change ((Except.ok (change s.types).1, { s with types := (change s.types).2 }) : Except Stop α × Store) =
    (.ok x, s') ↔ _
  simp

end

/-! ### Actions that only look at the store -/

/-- An action changes nothing, however it ends. -/
def Reads (a : Action α) : Prop := ∀ s, (a.run.run s).2 = s

theorem reads_pure {x : α} : (pure x : Action α).Reads := fun _ => rfl

theorem reads_refuse {span : Span} {cause : Cause} : (refuse span cause : Action α).Reads := fun _ => rfl

theorem reads_fail {g : Fault} : (fail g : Action α).Reads := fun _ => rfl

theorem reads_get : (get : Action Store).Reads := fun _ => rfl

theorem reads_lift {r : Except Fault α} : (lift r).Reads := by
  cases r with
  | ok x => exact reads_pure
  | error g => exact reads_fail

theorem Reads.bind (h : a.Reads) (hf : ∀ x, (f x).Reads) : (a >>= f).Reads := by
  intro s
  have hs := h s
  rw [run_bind]
  rcases ha : a.run.run s with ⟨e | x, s'⟩
  · rw [ha] at hs
    exact hs
  · rw [ha] at hs
    change s' = s at hs
    subst hs
    exact hf x s'

theorem reads_fromTypes {read : Types → Except Fault α} : (fromTypes read).Reads := reads_get.bind fun _ => reads_lift

theorem reads_textOf {t : TypeId} : (textOf t).Reads := reads_fromTypes

theorem reads_mapM {g : α → Action β} (h : ∀ x, (g x).Reads) (xs : List α) : (xs.mapM g).Reads := by
  induction xs with
  | nil => exact reads_pure
  | cons x xs ih =>
    rw [List.mapM_cons]
    exact (h x).bind fun _ => ih.bind fun _ => reads_pure

/-- A refusal of an operand or an argument: something is looked at, then the program is refused. -/
theorem reads_refuse_bind {span : Span} {cause : Cause} : ((refuse span cause : Action α) >>= f).Reads := fun _ => rfl

end RainCheck.Action
