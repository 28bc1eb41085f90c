import RainCheck.Proofs.RelocatedModules
import RainCheck.Proofs.Reporting

/-!
# Refusals of modules that differ by spans

Two modules that are treated in step are refused at the same declarations, with problems that are about the same; and a
problem was on record before in the one just if it was in the other (`refusals_related`).
-/

namespace RainCheck

/-- Two refusals of declarations with the same number. -/
structure Refusal.Matches (m : Matching) (r r' : Refusal) : Prop where
  phase : r'.phase = r.phase
  index : r'.index = r.index
  problem : m.problem r.problem r'.problem
  known : r'.known = r.known

section

variable {m : Matching} {s s' : Store} {p p' : Progress}

/-- Related lists, of which related values are kept. -/
private theorem rel_filterMap {α β γ δ : Type} {R : α → β → Prop} {Q : γ → δ → Prop}
    {f : α → Option γ} {g : β → Option δ}
    {l : List α} {l' : List β} (h : List.Forall₂ R l l') (hfg : ∀ a b, R a b → Option.Rel Q (f a) (g b)) :
    List.Forall₂ Q (l.filterMap f) (l'.filterMap g) := by
  induction h with
  | nil => exact .nil
  | @cons a b _ _ hab _ ih =>
    have hfirst := hfg a b hab
    rw [List.filterMap_cons, List.filterMap_cons]
    generalize f a = o at hfirst
    generalize g b = o' at hfirst
    cases hfirst with
    | none => exact ih
    | some hQ => exact .cons hQ ih

variable (hm : m.Exact)

include hm

private theorem Store.Matches.recorded (hs : s.Matches m s') : List.Forall₂ m.problem s.recorded s'.recorded := by
  refine List.rel_append (rel_filterMap hs.types.entries fun e e' he => ?_)
    (rel_filterMap hs.functions fun r r' hr => ?_)
  · cases he with
    | struct _ hstate => cases hstate with
      | failed hwhy => exact .some hwhy
      | _ => exact .none
    | _ => exact .none
  · exact (hs.function hm.rigid hr.1).failure

variable {R : Decl → Decl → Prop} {options : Options} {phase : Phase} (hphase : phase.InStep m R options)

include hphase

omit hm in
private theorem refusal?_related {i i' : Item} (hi : i.Related R i') (hp : p.Matches m p') :
    Option.Rel m.problem (phase.refusal? options i p) (phase.refusal? options i' p') := by
  obtain ⟨-, hresult, -⟩ := hphase _ _ _ _ hi.decl hp.store
  unfold Phase.refusal?
  rw [hp.halted, hi.failed]
  split
  · exact .none
  · generalize (phase.apply options i.decl p.store).2.result = r at hresult
    generalize (phase.apply options i'.decl p'.store).2.result = r' at hresult
    cases hresult with
    | ok => exact .none
    | error hwhy =>
      cases hwhy with
      | fault => exact .none
      | refused hwhy => exact .some hwhy

/-- A phase refuses the same declarations, with problems that are about the same. -/
theorem refusals_related (n : Nat) {items items' : List Item} (hitems : List.Forall₂ (Item.Related R) items items')
    (hp : p.Matches m p') :
    List.Forall₂ (Refusal.Matches m) (phase.refusals options n items p) (phase.refusals options n items' p') := by
  induction hitems generalizing n p p' with
  | nil => exact .nil
  | @cons i i' _ _ hi _ ih =>
    have hstep := step_related hm hphase hi hp
    have hrefusal := refusal?_related hphase hi hp
    rw [Phase.refusals, Phase.refusals]
    generalize phase.step options i p = r at hstep
    generalize phase.step options i' p' = r' at hstep
    cases hstep with
    | error => exact .nil
    | ok hr =>
      refine List.rel_append ?_ (ih (n + 1) hr.2)
      generalize phase.refusal? options i p = o at hrefusal
      generalize phase.refusal? options i' p' = o' at hrefusal
      cases hrefusal with
      | none => exact .nil
      | some hd => exact .cons ⟨rfl, rfl, hd, contains_matches hm (hp.store.recorded hm) hd⟩ .nil

omit hphase in
theorem refusalsAll_related {phases : List Phase} (hphases : ∀ phase ∈ phases, phase.InStep m R options)
    {items items' : List Item} (hitems : List.Forall₂ (Item.Related R) items items') (hp : p.Matches m p') :
    List.Forall₂ (Refusal.Matches m) (Phase.refusalsAll options phases items p)
      (Phase.refusalsAll options phases items' p') := by
  induction phases generalizing items items' p p' with
  | nil => exact .nil
  | cons phase rest ih =>
    obtain ⟨hphase, hrest⟩ := List.forall_mem_cons.mp hphases
    have hrun := run_related hm hphase hitems hp
    have hrefusals := refusals_related hm hphase 0 hitems hp
    rw [Phase.refusalsAll, Phase.refusalsAll]
    generalize phase.run options items p = r at hrun
    generalize phase.run options items' p' = r' at hrun
    cases hrun with
    | error => exact .nil
    | ok hr => exact List.rel_append hrefusals (ih hrest hr.1 hr.2)

end

end RainCheck
