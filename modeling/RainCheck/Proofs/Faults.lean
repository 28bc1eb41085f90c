import Mathlib.Control.Monad.Basic
import Mathlib.Tactic.Common
import RainCheck.Fault

/-!
# Computations that may fail

How computations in `Except` go on: after a value with what follows, after an error with nothing.  The operations that
raise a fault when they are misused do not raise one inside their domain.
-/

namespace RainCheck

variable {ε α β : Type}

@[simp] theorem ok_bind (a : α) (f : α → Except ε β) : (Except.ok a >>= f) = f a := rfl

@[simp] theorem error_bind (e : ε) (f : α → Except ε β) : (Except.error e >>= f) = Except.error e := rfl

theorem bind_eq_ok_iff {x : Except ε α} {f : α → Except ε β} {b : β} :
    (x >>= f) = .ok b ↔ ∃ a, x = .ok a ∧ f a = .ok b := by
  cases x <;> simp

@[simp] theorem pure_eq_ok (a : α) : (pure a : Except ε α) = .ok a := rfl

theorem mapError_eq_ok_iff {ζ : Type} {x : Except ε α} {f : ε → ζ} {a : α} : x.mapError f = .ok a ↔ x = .ok a := by
  cases x <;> simp [Except.mapError]

theorem itemAt_eq_ok_iff {items : List α} {index : Nat} {a : α} :
    itemAt items index = .ok a ↔ items[index]? = some a := by
  unfold itemAt
  split <;> simp_all

@[simp] theorem unwrap_some (a : α) : unwrap (some a) = .ok a := rfl

theorem unwrap_eq_ok_iff {o : Option α} {a : α} : unwrap o = .ok a ↔ o = some a := by
  cases o <;> simp [unwrap]

/-- Computations that are the same for every item of a list are the same for the list. -/
theorem mapM_congr {f g : α → Except ε β} {items : List α} (h : ∀ a ∈ items, f a = g a) :
    items.mapM f = items.mapM g := by
  induction items with
  | nil => rfl
  | cons a rest ih => rw [List.mapM_cons, List.mapM_cons, h a (by simp), ih fun b hb => h b (by simp [hb])]

/-- Computations that give a value for every item of a list give a list of values. -/
theorem exists_mapM {Q : β → Prop} {f : α → Except ε β} {items : List α} (h : ∀ a ∈ items, ∃ b, f a = .ok b ∧ Q b) :
    ∃ bs, items.mapM f = .ok bs ∧ ∀ b ∈ bs, Q b := by
  induction items with
  | nil => exact ⟨[], rfl, nofun⟩
  | cons a rest ih =>
    obtain ⟨b, hb, hQ⟩ := h a List.mem_cons_self
    obtain ⟨bs, hbs, hall⟩ := ih fun x hx => h x (List.mem_cons_of_mem a hx)
    refine ⟨b :: bs, ?_, List.forall_mem_cons.mpr ⟨hQ, hall⟩⟩
    rw [List.mapM_cons, hb, ok_bind, hbs]
    rfl

theorem eq_ok_of_toOption {r : Except ε α} {a : α} (h : r.toOption = some a) : r = .ok a := by
  cases r with
  | error e => cases h
  | ok b => exact congrArg Except.ok (Option.some.inj h)

end RainCheck
