import RainCheck.Options
import RainCheck.Types

/-!
# Builtins

The functions called as `@name(...)`: what they take and return, the feature some of them need, and their values on
constants.
* Bit counts and sign extensions keep the type of their argument.
* A conversion from a floating point number to an integer rounds towards zero and stays within the bounds of the type.
* Single precision numbers are computed in double precision and rounded once.
-/

namespace RainCheck

/-- The builtin functions. -/
inductive Builtin where
  | sqrt
  | abs
  | min
  | max
  | clz
  | ctz
  | popcnt
  | toI32
  | toI64
  | toF32
  | toF64
  | extend8
  | extend16
  deriving DecidableEq, Repr

/-- What the arguments of a builtin are. -/
inductive Builtin.Family where
  /-- One floating point number. -/
  | floatUnary
  /-- Two floating point numbers of one type. -/
  | floatBinary
  /-- One integer. -/
  | intUnary
  /-- One number, converted to the given type. -/
  | conversion (target : TypeId)
  /-- One integer, whose low bits are extended. -/
  | extension
  deriving DecidableEq, Repr

namespace Builtin

/-- All builtins. -/
def all : List Builtin :=
  [.sqrt, .abs, .min, .max, .clz, .ctz, .popcnt, .toI32, .toI64, .toF32, .toF64, .extend8, .extend16]

/-- The name of a builtin, without the sign in front of it. -/
def name : Builtin → String
  | .sqrt => "sqrt"
  | .abs => "abs"
  | .min => "min"
  | .max => "max"
  | .clz => "clz"
  | .ctz => "ctz"
  | .popcnt => "popcnt"
  | .toI32 => "i32"
  | .toI64 => "i64"
  | .toF32 => "f32"
  | .toF64 => "f64"
  | .extend8 => "extend8"
  | .extend16 => "extend16"

/-- The builtin with a given name. -/
def ofName? (name : String) : Option Builtin := all.find? (·.name = name)

/-- The family of a builtin. -/
def family : Builtin → Family
  | .sqrt | .abs => .floatUnary
  | .min | .max => .floatBinary
  | .clz | .ctz | .popcnt => .intUnary
  | .toI32 => .conversion TypeId.i32
  | .toI64 => .conversion TypeId.i64
  | .toF32 => .conversion TypeId.f32
  | .toF64 => .conversion TypeId.f64
  | .extend8 | .extend16 => .extension

/-- The number of arguments in a family. -/
def Family.arity : Family → Nat
  | .floatBinary => 2
  | _ => 1

/-- The types a family takes, in words. -/
def Family.expected : Family → String
  | .floatUnary | .floatBinary => "floating point type"
  | .intUnary | .extension => "integer type"
  | .conversion _ => "numeric type"

/-- Whether a family takes a first argument of a type. -/
def Family.takes : Family → TypeId → Bool
  | .floatUnary, t | .floatBinary, t => TypeId.isFloat t
  | .intUnary, t | .extension, t => TypeId.isInteger t
  | .conversion _, t => TypeId.isNumeric t

/-- The type of the result for a first argument of a type. -/
def Family.result : Family → TypeId → TypeId
  | .conversion target, _ => target
  | _, t => t

/-- The feature that a family needs for a first argument of a type. -/
def Family.feature? : Family → TypeId → Option Feature
  | .extension, _ => some .signExtension
  | .conversion target, t =>
    if TypeId.isFloat t && TypeId.isInteger target then some .saturatingConversion else none
  | _, _ => none

/-! ### Values -/

/-- The number of zero bits in front of the highest one bit. -/
def leadingZeros {w : Nat} (x : BitVec w) : Nat :=
  ((List.range w).takeWhile fun i => !x.getMsbD i).length

/-- The number of zero bits behind the lowest one bit. -/
def trailingZeros {w : Nat} (x : BitVec w) : Nat :=
  ((List.range w).takeWhile fun i => !x.getLsbD i).length

/-- The number of one bits. -/
def oneBits {w : Nat} (x : BitVec w) : Nat :=
  (List.range w).countP fun i => x.getLsbD i

/-- Whether the sign bit of a number is set. -/
def signBit (x : Float) : Bool := x.toBits >>> 63 == 1

/-- The positive infinity. -/
def infinity : Float := Float.ofBits 0x7FF0000000000000

/-- A value that is no number. -/
def noNumber : Float := Float.ofBits 0x7FF8000000000001

/-- The absolute value. -/
def absolute (x : Float) : Float := Float.ofBits (x.toBits &&& 0x7FFFFFFFFFFFFFFF)

/-- The smaller number; the negative zero is smaller, and without an infinity what is no number wins. -/
def minimum (x y : Float) : Float :=
  if x == -infinity || y == -infinity then -infinity
  else if x != x || y != y then noNumber
  else if x == 0 && y == 0 then (if signBit x then x else y)
  else if x < y then x
  else y

/-- The larger number; the positive zero is larger, and without an infinity what is no number wins. -/
def maximum (x y : Float) : Float :=
  if x == infinity || y == infinity then infinity
  else if x != x || y != y then noNumber
  else if x == 0 && y == 0 then (if signBit x then y else x)
  else if y < x then x
  else y

/-- A function of doubles applied to a floating point value. -/
def mapFloat (f : Float → Float) : Value → Option Value
  | .f32 x => some (.f32 (f (Double.ofSingle x)).toFloat32)
  | .f64 x => some (.f64 (f x))
  | _ => none

/-- A function of two doubles applied to floating point values, which have to be of one type. -/
def mapFloats (f : Float → Float → Float) : Value → Value → Except Fault (Option Value)
  | .f32 x, .f32 y => .ok (some (.f32 (f (Double.ofSingle x) (Double.ofSingle y)).toFloat32))
  | .f64 x, .f64 y => .ok (some (.f64 (f x y)))
  | .f32 _, _ => .error .mixedConstants
  | .f64 _, _ => .error .mixedConstants
  | _, _ => .ok none

/--
A count of bits of an integer, as a value of the type of the integer.  The bits are counted among
64, in which those of a shorter integer stand behind zeros; `count` is also given the number of bits
that the integer has.
-/
def countBits (count : BitVec 64 → (width : Nat) → Int) : Value → Option Value
  | .i32 v => some (.i32 (Int32.ofInt (count (v.toBitVec.setWidth 64) 32)))
  | .i64 v => some (.i64 (Int64.ofInt (count v.toBitVec 64)))
  | _ => none

/-- The signed value of the low bits of a number, which are moved to the top and back. -/
def signExtend (bits : Nat) (v : Int64) : Int64 :=
  let shift := Int64.ofNat (64 - bits)
  (v <<< shift) >>> shift

/-- The signed value of the low bits of an integer, as a value of the type of the integer. -/
def extend (bits : Nat) : Value → Option Value
  | .i32 v => some (.i32 (signExtend bits v.toInt64).toInt32)
  | .i64 v => some (.i64 (signExtend bits v))
  | _ => none

/-- The 32-bit integer nearest to a double towards zero. -/
def saturate32 (x : Float) : Int32 := (Double.saturate x Int32.minValue.toInt64 Int32.maxValue.toInt64).toInt32

/-- The 64-bit integer nearest to a double towards zero. -/
def saturate64 (x : Float) : Int64 := Double.saturate x Int64.minValue Int64.maxValue

/-- Converts a value to a 32-bit integer. -/
def asI32 : Value → Option Value
  | .i32 v => some (.i32 v)
  | .i64 v => some (.i32 v.toInt32)
  | .f32 v => some (.i32 (saturate32 (Double.ofSingle v)))
  | .f64 v => some (.i32 (saturate32 v))
  | .bool _ => none

/-- Converts a value to a 64-bit integer. -/
def asI64 : Value → Option Value
  | .i32 v => some (.i64 v.toInt64)
  | .i64 v => some (.i64 v)
  | .f32 v => some (.i64 (saturate64 (Double.ofSingle v)))
  | .f64 v => some (.i64 (saturate64 v))
  | .bool _ => none

/-- Converts a value to a single precision number. -/
def asF32 : Value → Option Value
  | .i32 v => some (.f32 v.toInt64.toFloat32)
  | .i64 v => some (.f32 v.toFloat32)
  | .f32 v => some (.f32 (Double.ofSingle v).toFloat32)
  | .f64 v => some (.f32 v.toFloat32)
  | .bool _ => none

/-- Converts a value to a double precision number. -/
def asF64 : Value → Option Value
  | .i32 v => some (.f64 (Double.ofInt64 v.toInt64))
  | .i64 v => some (.f64 (Double.ofInt64 v))
  | .f32 v => some (.f64 (Double.ofSingle v))
  | .f64 v => some (.f64 v)
  | .bool _ => none

/-- The value of a builtin with one argument. -/
def value1? : Builtin → Value → Option Value
  | .sqrt, v => mapFloat Float.sqrt v
  | .abs, v => mapFloat absolute v
  | .clz, v => countBits (fun x width => leadingZeros x - (64 - width)) v
  | .ctz, v => countBits (fun x width => Min.min (trailingZeros x) width) v
  | .popcnt, v => countBits (fun x _ => oneBits x) v
  | .toI32, v => asI32 v
  | .toI64, v => asI64 v
  | .toF32, v => asF32 v
  | .toF64, v => asF64 v
  | .extend8, v => extend 8 v
  | .extend16, v => extend 16 v
  | .min, _ => none
  | .max, _ => none

/-- The value of a builtin with two arguments. -/
def value2? : Builtin → Value → Value → Except Fault (Option Value)
  | .min, x, y => mapFloats minimum x y
  | .max, x, y => mapFloats maximum x y
  | _, _, _ => .ok none

/-- The value of a builtin on constant arguments. -/
def value? (b : Builtin) : List Value → Except Fault (Option Value)
  | [x] => .ok (b.value1? x)
  | [x, y] => b.value2? x y
  | _ => .ok none

end Builtin

end RainCheck
