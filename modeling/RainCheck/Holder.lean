import RainCheck.Fault

/-!
# Holders

A `Holder` holds at most one value, together with whether it owns it:
* an owned value can be taken away once, which leaves the holder empty;
* a borrowed value can be looked at, but not taken.
-/

namespace RainCheck

/-- A value that is absent, owned or borrowed. -/
inductive Holder (α : Type) where
  | empty
  | owned (value : α)
  | borrowed (value : α)
  deriving DecidableEq, Repr

namespace Holder

variable {α : Type}

/-- The ownership state of a holder. -/
def ownership : Holder α → Ownership
  | .empty => .empty
  | .owned _ => .owned
  | .borrowed _ => .borrowed

/-- The value in a holder, if there is one. -/
def value? : Holder α → Option α
  | .empty => none
  | .owned a => some a
  | .borrowed a => some a

/-- The value in a holder that is not empty. -/
def get (h : Holder α) : Except Fault α :=
  match h.value? with
  | some a => .ok a
  | none => .error .emptyHolder

/-- Takes the value out of a holder that owns it; the holder is empty afterwards. -/
def take : Holder α → Except Fault (α × Holder α)
  | .owned a => .ok (a, .empty)
  | h => .error (.notOwned h.ownership)

/-- Whether a holder owns its value. -/
def isOwned : Holder α → Bool
  | .owned _ => true
  | _ => false

/-- Whether a holder has a value that belongs to someone else. -/
def isBorrowed : Holder α → Bool
  | .borrowed _ => true
  | _ => false

/-- Whether a holder has no value. -/
def isEmpty : Holder α → Bool
  | .empty => true
  | _ => false

/-- Changes the value in a holder and keeps its ownership. -/
def map {β : Type} (f : α → β) : Holder α → Holder β
  | .empty => .empty
  | .owned a => .owned (f a)
  | .borrowed a => .borrowed (f a)

end Holder

end RainCheck
