import RainCheck.Proofs.Registration

/-!
# Phases

A phase treats one declaration after the other (`step`), so what each declaration preserves, a phase preserves
(`run_ends`).
* `Leads` says how a phase ends at one declaration: it succeeds or is refused, but raises no fault.
* The problems that are reported account for all that fails (`Accounted`).
-/

namespace RainCheck

/-- What is left of a compilation behind a declaration that is refused. -/
def Progress.refuse (p : Progress) (options : Options) (d : Diagnostic) (store : Store) : Progress :=
  { p.report d with store, halted := !options.continueOnError }

@[simp] theorem Progress.store_refuse (p : Progress) (options : Options) (d : Diagnostic) (store : Store) :
    (p.refuse options d store).store = store := rfl

theorem Progress.mem_refuse {p : Progress} {options : Options} {d e : Diagnostic} {store : Store} :
    e ∈ (p.refuse options d store).errors ↔ e ∈ p.errors ∨ e = d := by
  unfold refuse report
  split
  · rename_i hd
    rw [List.contains_iff_mem] at hd
    exact ⟨.inl, fun h => h.elim id fun heq => heq ▸ hd⟩
  · simp

theorem Progress.refuse_options {p : Progress} {options options' : Options}
    (hcontinue : options'.continueOnError = options.continueOnError) (d : Diagnostic) (s : Store) :
    p.refuse options' d s = p.refuse options d s := by
  rw [Progress.refuse, Progress.refuse, hcontinue]

namespace Phase

variable {phase : Phase} {options : Options} {item : Item} {rest items : List Item}
  {p : Progress} {d : Decl} {s : Store}

/-- Applies a phase to one declaration, unless it has failed or nothing more is attempted. -/
def step (phase : Phase) (options : Options) (item : Item) (p : Progress) : Except Fault (Item × Progress) :=
  if p.halted || item.failed then .ok (item, p)
  else
    match phase.apply options item.decl p.store with
    | (decl, ⟨.ok (), store⟩) => .ok ({ item with decl }, { p with store })
    | (decl, ⟨.error (.refused d), store⟩) => .ok (⟨decl, true⟩, p.refuse options d store)
    | (_, ⟨.error (.fault f), _⟩) => .error f

/-- A phase takes one step after the other. -/
theorem run_cons : phase.run options (item :: rest) p = (do
    let (item, p) ← phase.step options item p
    let (rest, p) ← phase.run options rest p
    return (item :: rest, p)) := by
  rw [run, step]
  split
  · rfl
  · rcases phase.apply options item.decl p.store with ⟨decl, ⟨(why | f) | u, store⟩⟩ <;> rfl

/-- What each declaration preserves, a phase preserves; `I` tells the declarations before from those behind. -/
theorem run_ends (I : List Item → List Item → Progress → Prop)
    (hstep : ∀ done item rest p, I done (item :: rest) p →
      ∃ item' p', phase.step options item p = .ok (item', p') ∧ I (done ++ [item']) rest p')
    (h : I [] items p) : ∃ items' p', phase.run options items p = .ok (items', p') ∧ I items' [] p' := by
  suffices hbehind : ∀ done, I done items p →
      ∃ items' p', phase.run options items p = .ok (items', p') ∧ I (done ++ items') [] p' from hbehind [] h
  clear h
  induction items generalizing p with
  | nil => exact fun done h => ⟨[], p, rfl, by simpa using h⟩
  | cons item rest ih =>
    intro done h
    obtain ⟨item', p₁, hitem, h₁⟩ := hstep done item rest p h
    obtain ⟨rest', p₂, hrest, h₂⟩ := ih _ h₁
    refine ⟨item' :: rest', p₂, ?_, by simpa using h₂⟩
    rw [run_cons, hitem, ok_bind]
    dsimp only
    rw [hrest]
    rfl

/-- The steps of a phase that has ended. -/
theorem run_cons_inv {items' : List Item} {r : Progress} (h : phase.run options (item :: rest) p = .ok (items', r)) :
    ∃ item' rest' q, phase.step options item p = .ok (item', q) ∧ phase.run options rest q = .ok (rest', r) ∧
      items' = item' :: rest' := by
  rw [run_cons] at h
  cases hitem : phase.step options item p with
  | error f =>
    rw [hitem] at h
    cases h
  | ok first =>
    obtain ⟨item', q⟩ := first
    rw [hitem, ok_bind] at h
    dsimp only at h
    cases hrest : phase.run options rest q with
    | error f =>
      rw [hrest] at h
      cases h
    | ok others =>
      rw [hrest] at h
      cases h
      exact ⟨item', _, q, rfl, hrest, rfl⟩

/-- A phase that has ended treated the last declarations behind the first ones. -/
theorem run_append_inv {items' : List Item} {r : Progress}
    (h : phase.run options (items ++ rest) p = .ok (items', r)) :
    ∃ first last q, phase.run options items p = .ok (first, q) ∧ phase.run options rest q = .ok (last, r) := by
  induction items generalizing p items' with
  | nil => exact ⟨[], items', p, rfl, h⟩
  | cons item items ih =>
    obtain ⟨item', others, p₁, hstep, hrun, -⟩ := run_cons_inv h
    obtain ⟨first, last, q, hfirst, hlast⟩ := ih hrun
    refine ⟨item' :: first, last, q, ?_, hlast⟩
    rw [run_cons, hstep, ok_bind]
    dsimp only
    rw [hfirst]
    rfl

/-! ### Options -/

variable {options' : Options}

/-- Only the last phase looks at options, apart from whether to go on behind a problem. -/
private theorem step_options (hphase : phase ≠ .bodies)
    (hcontinue : options'.continueOnError = options.continueOnError) :
    phase.step options' item p = phase.step options item p := by
  have happly : phase.apply options' item.decl p.store = phase.apply options item.decl p.store := by
    cases phase with
    | bodies => exact absurd rfl hphase
    | registration | structs | signatures => cases item.decl <;> rfl
  unfold step
  simp only [happly, Progress.refuse_options hcontinue]

theorem run_options (hphase : phase ≠ .bodies) (hcontinue : options'.continueOnError = options.continueOnError) :
    phase.run options' items p = phase.run options items p := by
  induction items generalizing p with
  | nil => rfl
  | cons item rest ih => simp only [run_cons, step_options hphase hcontinue, ih]

/-- A problem that is reported stays reported. -/
theorem step_errors {item' : Item} {q : Progress} (h : phase.step options item p = .ok (item', q)) :
    p.errors ⊆ q.errors := by
  intro d hd
  unfold step at h
  split at h
  · cases h
    exact hd
  · split at h
    · cases h
      exact hd
    · cases h
      exact Progress.mem_refuse.mpr (.inl hd)
    · cases h

theorem run_errors {items' : List Item} {q : Progress} (h : phase.run options items p = .ok (items', q)) :
    p.errors ⊆ q.errors := by
  induction items generalizing p items' with
  | nil =>
    cases h
    exact List.Subset.refl _
  | cons item items ih =>
    obtain ⟨item', others, p₁, hstep, hrun, -⟩ := run_cons_inv h
    exact List.Subset.trans (step_errors hstep) (ih hrun)

/-- A phase succeeds at a declaration such that `done` holds, or is refused such that `refused` holds. -/
def Leads (phase : Phase) (options : Options) (d : Decl) (s : Store) (done : Decl → Store → Prop)
    (refused : Decl → Diagnostic → Store → Prop) : Prop :=
  match phase.apply options d s with
  | (d', ⟨.ok (), s'⟩) => done d' s'
  | (d', ⟨.error (.refused why), s'⟩) => refused d' why s'
  | (_, ⟨.error (.fault _), _⟩) => False

variable {done : Decl → Store → Prop} {refused : Decl → Diagnostic → Store → Prop}

theorem Leads.mono {done' : Decl → Store → Prop} {refused' : Decl → Diagnostic → Store → Prop}
    (h : phase.Leads options d s done refused) (hdone : ∀ d' s', done d' s' → done' d' s')
    (hrefused : ∀ d' why s', refused d' why s' → refused' d' why s') : phase.Leads options d s done' refused' := by
  unfold Leads at h ⊢
  split at h
  · exact hdone _ _ h
  · exact hrefused _ _ _ h
  · exact h

theorem Leads.step (h : phase.Leads options item.decl p.store done refused) (hhalted : p.halted = false)
    (hfailed : item.failed = false) :
    (∃ d s, phase.step options item p = .ok (⟨d, false⟩, { p with store := s }) ∧ done d s) ∨
      ∃ d why s, phase.step options item p = .ok (⟨d, true⟩, p.refuse options why s) ∧ refused d why s := by
  unfold Leads at h
  rw [Phase.step, hhalted, hfailed]
  rcases happly : phase.apply options item.decl p.store with ⟨d, ⟨(why | f) | u, s⟩⟩
  · rw [happly] at h
    exact .inr ⟨d, _, s, rfl, h⟩
  · rw [happly] at h
    exact h.elim
  · rw [happly] at h
    exact .inl ⟨d, s, rfl, h⟩

theorem step_skip (h : p.halted = true ∨ item.failed = true) : phase.step options item p = .ok (item, p) := by
  rw [step, if_pos]
  rcases h with h | h <;> simp [h]

theorem step_of_ok (hhalted : p.halted = false)
    (hfailed : item.failed = false) (h : phase.apply options item.decl p.store = (d, ⟨.ok (), s⟩)) :
    phase.step options item p = .ok (⟨d, false⟩, { p with store := s }) := by
  rw [step, hhalted, hfailed, h]
  rfl

theorem step_of_refused {why : Diagnostic} (hhalted : p.halted = false)
    (hfailed : item.failed = false) (h : phase.apply options item.decl p.store = (d, ⟨.error (.refused why), s⟩)) :
    phase.step options item p = .ok (⟨d, true⟩, p.refuse options why s) := by
  rw [step, hhalted, hfailed, h]
  rfl

/-- An action in a phase. -/
theorem leads_runOn {a : Action Unit} {P : Store → Prop} {R : Diagnostic → Store → Prop}
    (happly : phase.apply options d s = (d, a.runOn s)) (h : a.Ends s (fun _ => P) R) :
    phase.Leads options d s (fun d' s' => d' = d ∧ P s') (fun d' why s' => d' = d ∧ R why s') := by
  unfold Action.Ends at h
  unfold Leads
  rw [happly, Action.runOn]
  rcases hrun : a.run s with ⟨(why | f) | u, s'⟩
  · rw [show a.run.run s = _ from hrun] at h
    exact ⟨rfl, h⟩
  · rw [show a.run.run s = _ from hrun] at h
    exact h.elim
  · rw [show a.run.run s = _ from hrun] at h
    exact ⟨rfl, h⟩

end Phase

theorem Action.discard_eq {α : Type} (a : Action α) : discard a = a >>= fun _ => pure PUnit.unit := by
  rw [bind_pure_comp]
  rfl

theorem Action.ends_discard {α : Type} {a : Action α} {s : Store} {P : Store → Prop} {R : Diagnostic → Store → Prop}
    (h : a.Ends s (fun _ => P) R) : Action.Ends (discard a) s (fun _ => P) R := by
  rw [Action.discard_eq, Action.ends_bind]
  exact h.mono (fun _ _ hP => Action.ends_pure.mpr hP) (fun _ _ hR => hR)

/-! ### What has failed -/

/-- The problems that are reported account for all declarations that failed, and for the end of the compilation. -/
structure Accounted (L : Listing) (uses : List Use) (options : Options) (items : List Item) (p : Progress) : Prop where
  explained : ∀ d ∈ p.errors, Explains L uses d
  failed : ∀ i ∈ items, i.failed = true → p.errors ≠ []
  halted : p.halted = true → p.errors ≠ [] ∧ options.continueOnError = false

namespace Accounted

variable {L : Listing} {uses : List Use} {options : Options} {items items' : List Item} {p : Progress}

theorem sub (h : Accounted L uses options items p) (hsub : ∀ i ∈ items', i.failed = true → i ∈ items) :
    Accounted L uses options items' p :=
  { h with failed := fun i hi hfailed => h.failed i (hsub i hi hfailed) hfailed }

/-- With all declarations asked for, nothing ends a compilation early. -/
theorem running (h : Accounted L uses options items p) (hcontinue : options.continueOnError = true) :
    p.halted = false := by
  cases hhalted : p.halted with
  | false => rfl
  | true =>
    rw [(h.halted hhalted).2] at hcontinue
    cases hcontinue

/-- A declaration that is not considered any more. -/
theorem tail {rest : List Item} {item : Item} (h : Accounted L uses options (item :: rest) p) (s : Store) :
    Accounted L uses options rest { p with store := s } :=
  ⟨h.explained, fun i hi => h.failed i (List.mem_cons_of_mem _ hi), h.halted⟩

/-- A declaration that succeeds. -/
theorem succeed {done rest : List Item} {item item' : Item} (h : Accounted L uses options (done ++ item :: rest) p)
    (hitem : item'.failed = false) (s : Store) :
    Accounted L uses options (done ++ [item'] ++ rest) { p with store := s } := by
  refine ⟨h.explained, fun i hi hfailed => ?_, h.halted⟩
  rw [List.append_assoc] at hi
  rcases List.mem_append.mp hi with hi | hi
  · exact h.failed i (List.mem_append_left _ hi) hfailed
  · rcases List.mem_cons.mp hi with rfl | hi
    · rw [hitem] at hfailed
      cases hfailed
    · exact h.failed i (List.mem_append_right _ (List.mem_cons_of_mem _ hi)) hfailed

theorem refuse (h : Accounted L uses options items p) {d : Diagnostic} (hd : Explains L uses d) (s : Store)
    (items' : List Item) : Accounted L uses options items' (p.refuse options d s) := by
  have hne : (p.refuse options d s).errors ≠ [] := List.ne_nil_of_mem (Progress.mem_refuse.mpr (.inr rfl))
  refine ⟨fun e he => ?_, fun _ _ _ => hne, fun hhalted => ⟨hne, by simpa [Progress.refuse] using hhalted⟩⟩
  rcases Progress.mem_refuse.mp he with he | rfl
  · exact h.explained e he
  · exact hd

end Accounted

end RainCheck
