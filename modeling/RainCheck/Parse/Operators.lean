import RainCheck.Token
import RainCheck.Tree.Expr

/-!
# Binary operators

Which tokens are binary operators, how tightly these bind, and how a sequence of operands with operators between them
becomes a tree:
* operators of a higher level bind tighter;
* operators of one level group to the left.
-/

namespace RainCheck

namespace BinaryOp

/-- The operator written by a token. -/
def ofToken? : TokenKind → Option BinaryOp
  | .bar => some .or
  | .caret => some .xor
  | .ampersand => some .and
  | .equal => some .eq
  | .notEqual => some .ne
  | .less => some .lt
  | .lessEqual => some .le
  | .greater => some .gt
  | .greaterEqual => some .ge
  | .shiftLeft => some .shl
  | .shiftRight => some .shr
  | .plus => some .add
  | .minus => some .sub
  | .star => some .mul
  | .slash => some .div
  | .percent => some .rem
  | _ => none

/-- How tightly an operator binds. -/
def level : BinaryOp → Nat
  | .or => 0
  | .xor => 1
  | .and => 2
  | .eq | .ne => 3
  | .lt | .le | .gt | .ge => 4
  | .shl | .shr => 5
  | .add | .sub => 6
  | .mul | .div | .rem => 7

end BinaryOp

namespace Expr

/-- The operation on two operands, which stands where they do. -/
def operation (lhs : Expr) (op : BinaryOp) (rhs : Expr) : Expr :=
  .binary { span := lhs.span.join rhs.span } op lhs rhs

/-- Joins the operands around the operators of one level, from the left. -/
def joinLevel (level : Nat) : Expr → List (BinaryOp × Expr) → Expr × List (BinaryOp × Expr)
  | first, [] => (first, [])
  | first, (op, next) :: rest =>
    if op.level = level then joinLevel level (operation first op next) rest
    else
      let (next, rest) := joinLevel level next rest
      (first, (op, next) :: rest)

/-- Joins the operands around all operators of the given levels, in turn. -/
def joinLevels : List Nat → Expr → List (BinaryOp × Expr) → Expr
  | [], first, _ => first
  | level :: levels, first, rest =>
    let (first, rest) := joinLevel level first rest
    joinLevels levels first rest

/-- The tree of operands with operators between them. -/
def ofOperands (first : Expr) (rest : List (BinaryOp × Expr)) : Expr :=
  joinLevels [7, 6, 5, 4, 3, 2, 1, 0] first rest

end Expr

end RainCheck
