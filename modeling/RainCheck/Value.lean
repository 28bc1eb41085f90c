import RainCheck.Fault
import RainCheck.Number.Double

/-!
# Constant values

The values of constants, and the operators on them.
* Integers wrap around; a shift takes its amount modulo the width, and a right shift keeps the sign.
* Division rounds towards zero.  A division by the integer 0 has no value.
* A binary operator asks for operands of one type; to combine others is a fault.
-/

namespace RainCheck

/-- The unary operators. -/
inductive UnaryOp where
  /-- Arithmetic negation `-`. -/
  | negate
  /-- Logical or bitwise negation `!`. -/
  | invert
  /-- The reference to a location `&`. -/
  | address
  deriving DecidableEq, Repr

/-- The spelling of a unary operator. -/
def UnaryOp.text : UnaryOp → String
  | .negate => "-"
  | .invert => "!"
  | .address => "&"

/-- The binary operators. -/
inductive BinaryOp where
  | add
  | sub
  | mul
  | div
  | rem
  | shl
  | shr
  | and
  | or
  | xor
  | eq
  | ne
  | lt
  | le
  | gt
  | ge
  deriving DecidableEq, Repr

namespace BinaryOp

/-- The spelling of a binary operator. -/
def text : BinaryOp → String
  | .add => "+"
  | .sub => "-"
  | .mul => "*"
  | .div => "/"
  | .rem => "%"
  | .shl => "<<"
  | .shr => ">>"
  | .and => "&"
  | .or => "|"
  | .xor => "^"
  | .eq => "=="
  | .ne => "!="
  | .lt => "<"
  | .le => "<="
  | .gt => ">"
  | .ge => ">="

/-- Whether an operator compares its operands. -/
def isComparison : BinaryOp → Bool
  | .eq | .ne | .lt | .le | .gt | .ge => true
  | _ => false

end BinaryOp

/-- The value of a constant. -/
inductive Value where
  | i32 (v : Int32)
  | i64 (v : Int64)
  | bool (v : Bool)
  | f32 (v : Float32)
  | f64 (v : Float)
  deriving DecidableEq

namespace Value

/-- The value of a unary operator. -/
def unary? : UnaryOp → Value → Option Value
  | .negate, .i32 v => some (.i32 (-v))
  | .negate, .i64 v => some (.i64 (-v))
  | .negate, .f32 v => some (.f32 (-v))
  | .negate, .f64 v => some (.f64 (-v))
  | .invert, .i32 v => some (.i32 (~~~v))
  | .invert, .i64 v => some (.i64 (~~~v))
  | .invert, .bool v => some (.bool (!v))
  | _, _ => none

/-- The value of a comparison, and nothing for the other operators. -/
def compare? {α : Type} [BEq α] [LT α] [DecidableLT α] [LE α] [DecidableLE α] (op : BinaryOp) (l r : α) :
    Option Value :=
  match op with
  | .eq => some (.bool (l == r))
  | .ne => some (.bool (l != r))
  | .lt => some (.bool (decide (l < r)))
  | .le => some (.bool (decide (l ≤ r)))
  | .gt => some (.bool (decide (r < l)))
  | .ge => some (.bool (decide (r ≤ l)))
  | _ => none

/-- The value of an operator on integers of a width, a power of two.  They are compared with their signs. -/
def integer? {w : Nat} (make : BitVec w → Value) (op : BinaryOp) (l r : BitVec w) : Option Value :=
  -- the amount of a shift is taken modulo the width
  let amount := r.toNat &&& (w - 1)
  match op with
  | .add => some (make (l + r))
  | .sub => some (make (l - r))
  | .mul => some (make (l * r))
  | .div => if r = 0 then none else some (make (l.sdiv r))
  | .rem => if r = 0 then none else some (make (l.srem r))
  | .shl => some (make (l <<< amount))
  | .shr => some (make (l.sshiftRight amount))
  | .and => some (make (l &&& r))
  | .or => some (make (l ||| r))
  | .xor => some (make (l ^^^ r))
  | _ => compare? op l.toInt r.toInt

/-- The value of an operator on floating point numbers of one precision. -/
def float? {α : Type} [Add α] [Sub α] [Mul α] [Div α] [BEq α] [LT α] [DecidableLT α] [LE α] [DecidableLE α]
    (make : α → Value) (op : BinaryOp) (l r : α) : Option Value :=
  match op with
  | .add => some (make (l + r))
  | .sub => some (make (l - r))
  | .mul => some (make (l * r))
  | .div => some (make (l / r))
  | _ => compare? op l r

/-- The value of an operator on truth values. -/
def bool? (op : BinaryOp) (l r : Bool) : Option Value :=
  match op with
  | .and => some (.bool (l && r))
  | .or => some (.bool (l || r))
  | .xor => some (.bool (l != r))
  | .ne => some (.bool (l != r))
  | .eq => some (.bool (l == r))
  | _ => none

/-- The value of a binary operator on constants, which have to be of one type. -/
def binary? (op : BinaryOp) : Value → Value → Except Fault (Option Value)
  | .i32 l, .i32 r => .ok (integer? (fun v => .i32 (.ofBitVec v)) op l.toBitVec r.toBitVec)
  | .i64 l, .i64 r => .ok (integer? (fun v => .i64 (.ofBitVec v)) op l.toBitVec r.toBitVec)
  | .bool l, .bool r => .ok (bool? op l r)
  | .f32 l, .f32 r => .ok (float? .f32 op l r)
  | .f64 l, .f64 r => .ok (float? .f64 op l r)
  | _, _ => .error .mixedConstants

end Value

end RainCheck
