import RainCheck.Fault

/-!
# Stacks

A `Stack` is a list of items from the bottom to the top:
* `peek n` looks `n` items below the top;
* `fromLowest` cuts the part above the lowest item with a property.
-/

namespace RainCheck

/-- A stack, written from its bottom to its top. -/
structure Stack (α : Type) where
  items : List α := []
  deriving DecidableEq, Repr

namespace Stack

variable {α : Type}

/-- The number of items. -/
def size (s : Stack α) : Nat := s.items.length

/-- Whether there is no item. -/
def isEmpty (s : Stack α) : Bool := s.items.isEmpty

/-- Puts an item on top. -/
def push (s : Stack α) (item : α) : Stack α := ⟨s.items ++ [item]⟩

/-- The item `offset` places below the top. -/
def peek (s : Stack α) (offset : Nat) : Except Fault α :=
  match s.items.reverse[offset]? with
  | some a => .ok a
  | none => .error .peekBelowBottom

/-- Removes the top item and returns it with what is left. -/
def pop (s : Stack α) : Except Fault (α × Stack α) := do
  let top ← s.peek 0
  return (top, ⟨s.items.dropLast⟩)

/-- The items from the lowest one with a property up to the top, if one has it. -/
def fromLowest (p : α → Bool) (s : Stack α) : Option (List α) :=
  match s.items.dropWhile (fun a => !p a) with
  | [] => none
  | found => some found

end Stack

end RainCheck
