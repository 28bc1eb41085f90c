/-!
# Faults

A `Fault` is a misuse of the library itself, as opposed to a problem in a checked program:
* an operation was used outside its domain (an empty holder, a position outside a list, ...);
* it is never a diagnostic, and no accepted or rejected program raises one.
Operations that can be misused return `Except Fault`, so the misuse is visible in their type.
-/

namespace RainCheck

/-- The three states of a holder, as named in the message about a refused take. -/
inductive Ownership where
  | empty
  | owned
  | borrowed
  deriving DecidableEq, Repr

/-- The word used for an ownership state in messages. -/
def Ownership.word : Ownership → String
  | .empty => "empty"
  | .owned => "owned"
  | .borrowed => "borrowed"

/-- The ways in which an operation can be used outside its domain. -/
inductive Fault where
  /-- A position, an index or an identifier lies outside the structure it is used with. -/
  | outOfRange
  /-- The bound on the depth of a recursion was reached. -/
  | exhausted
  /-- The content of an empty holder was asked for. -/
  | emptyHolder
  /-- The content of a holder that does not own it was taken. -/
  | notOwned (state : Ownership)
  /-- The content of an absent value was asked for. -/
  | emptyOption
  /-- The bounds of a span were given in the wrong order. -/
  | reversedSpan
  /-- Locations of two different files were joined. -/
  | foreignLocation
  /-- A token was asked for where no rule matches. -/
  | noToken
  /-- An item below the bottom of a stack was asked for. -/
  | peekBelowBottom
  /-- Constants of different types were combined. -/
  | mixedConstants
  /-- A table row has the wrong number of cells. -/
  | columnCount
  /-- A text was repeated a negative number of times. -/
  | negativeRepeat
  /-- A set of numbers was asked to hold the largest number there is. -/
  | setCapacity
  /-- A structure was asked to be larger than any memory. -/
  | tooLarge
  deriving DecidableEq, Repr

/-- The message of a fault; positions outside their range, mixed constants and sizes that no memory holds have none. -/
def Fault.message? : Fault → Option String
  | .outOfRange => none
  | .exhausted => none
  | .emptyHolder => some "cannot access an empty holder"
  | .notOwned state => some ("cannot take from a holder which is not owned (" ++ state.word ++ ")")
  | .emptyOption => some "cannot unwrap an empty option"
  | .reversedSpan => some "invalid span"
  | .foreignLocation => some "cannot join locations in different files"
  | .noToken => some "no tokens remaining"
  | .peekBelowBottom => some "peek out-of-bounds"
  | .mixedConstants => none
  | .columnCount => some "incorrect number of columns"
  | .negativeRepeat => some "strings: negative Repeat count"
  | .setCapacity => some "You are exceeding the capacity"
  | .tooLarge => none

/-- The content of an optional value, whose absence is a fault. -/
def unwrap {α : Type} : Option α → Except Fault α
  | some a => .ok a
  | none => .error .emptyOption

/-- The item at a position of a list, which has to lie inside it. -/
def itemAt {α : Type} (items : List α) (index : Nat) : Except Fault α :=
  match items[index]? with
  | some a => .ok a
  | none => .error .outOfRange

end RainCheck
