import Mathlib.Algebra.Order.Ring.Int
import Mathlib.Data.Nat.Bits
import Mathlib.Data.Nat.Digits.Defs
import Mathlib.Data.Nat.Size
import Mathlib.NumberTheory.Padics.PadicVal.Basic
import RainCheck.Proofs.Faults
import RainCheck.Tree.Expr
import RainCheck.Builtin

/-!
# Evaluation of constants

What the operators and the builtins mean on constants, said with unbounded integers (`BinaryOp.meaning`,
`Builtin.meaning`), and the value of a whole expression (`Expr.evaluate`).
* An integer operation is computed in `Int` and taken modulo the width; bit patterns are natural numbers.
* Operations on floating point numbers are given.

The operations on constants compute what is said here (`Value.binary?_eq_meaning`, `Builtin.value?_eq_meaning`).
-/

namespace RainCheck

/-! ### Integers of a width -/

/-- The two widths of integers, with the value that an integer has modulo the width. -/
inductive Width where
  | word
  | long

namespace Width

/-- The number of bits. -/
def bits : Width → Nat
  | .word => 32
  | .long => 64

/-- The constant that is congruent to an integer modulo the width. -/
def wrap : Width → Int → Value
  | .word, n => .i32 (Int32.ofInt n)
  | .long, n => .i64 (Int64.ofInt n)

/-- The bits of an integer in two's complement, as a natural number. -/
def pattern (w : Width) (n : Int) : Nat := (n % 2 ^ w.bits).toNat

end Width

/-- What an operator gives on integers of a width, and nothing for a division by zero. -/
def BinaryOp.integers (w : Width) (l r : Int) : BinaryOp → Option Value
  | .add => some (w.wrap (l + r))
  | .sub => some (w.wrap (l - r))
  | .mul => some (w.wrap (l * r))
  | .div => if r = 0 then none else some (w.wrap (l.tdiv r))
  | .rem => if r = 0 then none else some (w.wrap (l.tmod r))
  | .shl => some (w.wrap (l * 2 ^ (r % w.bits).toNat))
  | .shr => some (w.wrap (l / 2 ^ (r % w.bits).toNat))
  | .and => some (w.wrap (w.pattern l &&& w.pattern r : Nat))
  | .or => some (w.wrap (w.pattern l ||| w.pattern r : Nat))
  | .xor => some (w.wrap (w.pattern l ^^^ w.pattern r : Nat))
  | .eq => some (.bool (l = r))
  | .ne => some (.bool (l ≠ r))
  | .lt => some (.bool (l < r))
  | .le => some (.bool (l ≤ r))
  | .gt => some (.bool (l > r))
  | .ge => some (.bool (l ≥ r))

/-- What an operator gives on truth values. -/
def BinaryOp.truths (l r : Bool) : BinaryOp → Option Value
  | .and => some (.bool (l = true ∧ r = true))
  | .or => some (.bool (l = true ∨ r = true))
  | .xor | .ne => some (.bool (l ≠ r))
  | .eq => some (.bool (l = r))
  | _ => none

/-- What an operator gives on constants of one type; the operations on floating point numbers are given. -/
def BinaryOp.meaning (op : BinaryOp) : Value → Value → Option Value
  | .i32 l, .i32 r => op.integers .word l.toInt r.toInt
  | .i64 l, .i64 r => op.integers .long l.toInt r.toInt
  | .bool l, .bool r => op.truths l r
  | .f32 l, .f32 r => Value.float? .f32 op l r
  | .f64 l, .f64 r => Value.float? .f64 op l r
  | _, _ => none

/-- What a negation gives on a constant. -/
def UnaryOp.meaning : UnaryOp → Value → Option Value
  | .negate, .i32 v => some (Width.word.wrap (-v.toInt))
  | .negate, .i64 v => some (Width.long.wrap (-v.toInt))
  | .negate, .f32 v => some (.f32 (-v))
  | .negate, .f64 v => some (.f64 (-v))
  | .invert, .i32 v => some (Width.word.wrap (-v.toInt - 1))
  | .invert, .i64 v => some (Width.long.wrap (-v.toInt - 1))
  | .invert, .bool v => some (.bool (v = false))
  | _, _ => none

/-- What a builtin gives on an integer, if the result is an integer too. -/
def Builtin.integer (w : Width) (n : Int) : Builtin → Option Value
  | .clz => some (w.wrap (w.bits - (w.pattern n).size : Nat))
  | .ctz => some (w.wrap (if w.pattern n = 0 then w.bits else padicValNat 2 (w.pattern n) : Nat))
  | .popcnt => some (w.wrap ((Nat.digits 2 (w.pattern n)).count 1 : Nat))
  | .extend8 => some (w.wrap (n.bmod (2 ^ 8)))
  | .extend16 => some (w.wrap (n.bmod (2 ^ 16)))
  | .toI32 => some (Width.word.wrap n)
  | .toI64 => some (Width.long.wrap n)
  | _ => none

/-- Whether a builtin gives a floating point number, which is then given. -/
def Builtin.isFloating : Builtin → Bool
  | .sqrt | .abs | .min | .max | .toF32 | .toF64 => true
  | _ => false

/-- What a builtin gives on constants; what is computed with floating point numbers is given. -/
def Builtin.meaning (b : Builtin) : List Value → Option Value
  | [.i32 n] => if b.isFloating then b.value1? (.i32 n) else b.integer .word n.toInt
  | [.i64 n] => if b.isFloating then b.value1? (.i64 n) else b.integer .long n.toInt
  | [.f32 x] => b.value1? (.f32 x)
  | [.f64 x] => b.value1? (.f64 x)
  | [.f32 x, .f32 y] => (b.value2? (.f32 x) (.f32 y)).toOption.join
  | [.f64 x, .f64 y] => (b.value2? (.f64 x) (.f64 y)).toOption.join
  | _ => none

/-! ### Whole expressions -/

namespace Expr

mutual

/-- The value of an expression made of literals, operators and, if they are to be computed, builtins. -/
def evaluate (folding : Bool) : Expr → Option Value
  | .integer _ n => some (.i32 n)
  | .float _ x => some (.f64 x)
  | .boolean _ b => some (.bool b)
  | .unary _ op operand => (evaluate folding operand).bind op.meaning
  | .binary _ op lhs rhs => (evaluate folding lhs).bind fun l => (evaluate folding rhs).bind fun r => op.meaning l r
  | .builtinCall _ name args =>
    if folding then (Builtin.ofName? name).bind fun b => (evaluateAll folding args).bind b.meaning else none
  | _ => none

/-- The values of expressions that all have one. -/
def evaluateAll (folding : Bool) : List Expr → Option (List Value)
  | [] => some []
  | e :: rest => (evaluate folding e).bind fun v => (evaluateAll folding rest).map (v :: ·)

end

end Expr

/-! ### Operators -/

namespace Width

/-- The constant with given bits. -/
def constant : (w : Width) → BitVec w.bits → Value
  | .word, x => .i32 (.ofBitVec x)
  | .long, x => .i64 (.ofBitVec x)

variable {w : Width}

private theorem pattern_toInt (x : BitVec w.bits) : w.pattern x.toInt = x.toNat := by
  have hlt := x.isLt
  have hmod : x.toInt % (2 ^ w.bits : Nat) = x.toNat := by
    rw [BitVec.toInt_eq_toNat_bmod, Int.bmod_emod]
    exact Int.emod_eq_of_lt (by omega) (by omega)
  rw [pattern]
  push_cast at hmod
  rw [hmod, Int.toNat_natCast]

/-- An integer is wrapped to the constant of the width that has its value modulo the width. -/
private theorem wrap_eq {x : BitVec w.bits} {n : Int} (h : x.toInt = n.bmod (2 ^ w.bits)) :
    w.wrap n = w.constant x := by
  have hbits : BitVec.ofInt w.bits n = x := BitVec.eq_of_toInt_eq (by rw [BitVec.toInt_ofInt, h])
  rw [← hbits]
  cases w <;> rfl

end Width

section

variable {w : Nat} (x : BitVec w)

/-- A shift to the left multiplies by a power of two. -/
private theorem toInt_shiftLeft_eq_bmod (k : Nat) : (x <<< k).toInt = (x.toInt * 2 ^ k).bmod (2 ^ w) := by
  rw [BitVec.toInt_shiftLeft, Nat.shiftLeft_eq, BitVec.toInt_eq_toNat_bmod, Int.bmod_mul_bmod]
  push_cast
  rfl

/-- A shift to the right divides by a power of two and rounds down. -/
private theorem toInt_sshiftRight_eq_bmod (k : Nat) : (x.sshiftRight k).toInt = (x.toInt / 2 ^ k).bmod (2 ^ w) := by
  rw [← BitVec.toInt_bmod_cancel, BitVec.toInt_sshiftRight, Int.shiftRight_eq_div_pow]
  push_cast
  rfl

end

namespace Value

section

variable {w : Width} (x : BitVec w.bits)

/-- The amount of a shift is taken modulo the width. -/
private theorem toNat_and_width : x.toNat &&& (w.bits - 1) = (x.toInt % w.bits).toNat := by
  have hmod : x.toNat &&& (w.bits - 1) = x.toNat % w.bits := by
    cases w
    · exact Nat.and_two_pow_sub_one_eq_mod x.toNat 5
    · exact Nat.and_two_pow_sub_one_eq_mod x.toNat 6
  -- the width divides the number of patterns
  have hdvd : w.bits ∣ 2 ^ w.bits := by cases w <;> decide
  rw [hmod, BitVec.toInt_eq_toNat_bmod, ← Int.emod_emod_of_dvd _ (Int.natCast_dvd_natCast.mpr hdvd), Int.bmod_emod,
    Int.emod_emod_of_dvd _ (Int.natCast_dvd_natCast.mpr hdvd)]
  exact (Int.toNat_natCast _).symm

private theorem toInt_eq_zero : x.toInt = 0 ↔ x = 0 := by
  rw [← BitVec.toInt_inj]
  simp

end

/-- An operator on integers of a width gives what it means. -/
private theorem integer?_eq_integers (w : Width) (op : BinaryOp) (l r : BitVec w.bits) :
    integer? w.constant op l r = op.integers w l.toInt r.toInt := by
  have hamount := toNat_and_width r
  have hzero := toInt_eq_zero r
  cases op with
  | add => exact congrArg some (Width.wrap_eq (BitVec.toInt_add l r)).symm
  | sub => exact congrArg some (Width.wrap_eq BitVec.toInt_sub).symm
  | mul => exact congrArg some (Width.wrap_eq (BitVec.toInt_mul l r)).symm
  | div =>
    simp only [integer?, BinaryOp.integers, hzero]
    split
    · rfl
    · exact congrArg some (Width.wrap_eq (BitVec.toInt_sdiv l r)).symm
  | rem =>
    simp only [integer?, BinaryOp.integers, hzero]
    split
    · rfl
    · refine congrArg some (Width.wrap_eq ?_).symm
      rw [← BitVec.toInt_bmod_cancel, BitVec.toInt_srem]
  | shl =>
    refine congrArg some (Width.wrap_eq ?_).symm
    rw [toInt_shiftLeft_eq_bmod, hamount]
  | shr =>
    refine congrArg some (Width.wrap_eq ?_).symm
    rw [toInt_sshiftRight_eq_bmod, hamount]
  | and =>
    refine congrArg some (Width.wrap_eq ?_).symm
    rw [Width.pattern_toInt, Width.pattern_toInt]
    exact BitVec.toInt_and _ _
  | or =>
    refine congrArg some (Width.wrap_eq ?_).symm
    rw [Width.pattern_toInt, Width.pattern_toInt]
    exact BitVec.toInt_or _ _
  | xor =>
    refine congrArg some (Width.wrap_eq ?_).symm
    rw [Width.pattern_toInt, Width.pattern_toInt]
    exact BitVec.toInt_xor _ _
  | eq => simp [integer?, compare?, BinaryOp.integers, Bool.beq_eq_decide_eq]
  | ne => simp [integer?, compare?, BinaryOp.integers, bne, Bool.beq_eq_decide_eq]
  | _ => rfl

private theorem bool?_eq_truths (op : BinaryOp) (l r : Bool) : bool? op l r = op.truths l r := by
  cases op <;> cases l <;> cases r <;> rfl

/-- A binary operator on constants of one type gives what it means. -/
theorem binary?_eq_meaning (op : BinaryOp) {l r : Value} (h : l.type = r.type) :
    binary? op l r = .ok (op.meaning l r) := by
  cases l <;> cases r
  case i32.i32 l r => exact congrArg Except.ok (integer?_eq_integers .word op l.toBitVec r.toBitVec)
  case i64.i64 l r => exact congrArg Except.ok (integer?_eq_integers .long op l.toBitVec r.toBitVec)
  case bool.bool l r => exact congrArg Except.ok (bool?_eq_truths op l r)
  case f32.f32 => rfl
  case f64.f64 => rfl
  all_goals cases h

/-- A negation of a constant gives what it means. -/
theorem unary?_eq_meaning (op : UnaryOp) (v : Value) : unary? op v = op.meaning v := by
  cases op <;> cases v
  case negate.i32 v => exact congrArg some (Width.wrap_eq (w := .word) (Int32.toInt_neg v)).symm
  case negate.i64 v => exact congrArg some (Width.wrap_eq (w := .long) (Int64.toInt_neg v)).symm
  case invert.i32 v => exact congrArg some (Width.wrap_eq (w := .word) (Int32.toInt_not v)).symm
  case invert.i64 v => exact congrArg some (Width.wrap_eq (w := .long) (Int64.toInt_not v)).symm
  case invert.bool v => cases v <;> rfl
  all_goals rfl

end Value

/-! ### Builtins -/

namespace Builtin

/-- How far a property holds from the first number on. -/
theorem length_takeWhile_range {p : Nat → Bool} {n k : Nat} (hk : k ≤ n) (hbefore : ∀ i < k, p i = true)
    (hstop : k < n → p k = false) : ((List.range n).takeWhile p).length = k := by
  have hsplit : List.range n = List.range k ++ (List.range (n - k)).map (k + ·) := by
    rw [← List.range_add, Nat.add_sub_cancel' hk]
  rw [hsplit, List.takeWhile_append_of_pos fun i hi => hbefore i (List.mem_range.mp hi)]
  cases hrest : n - k with
  | zero => simp
  | succ m =>
    have hfirst : p k = false := hstop (by omega)
    simp [List.range_succ_eq_map, hfirst]

section

variable {w : Nat} (x : BitVec w)

private theorem leadingZeros_eq : leadingZeros x = w - x.toNat.size := by
  have hsize : x.toNat.size ≤ w := Nat.size_le.mpr x.isLt
  refine length_takeWhile_range (Nat.sub_le _ _) (fun i hi => ?_) fun hlt => ?_
  · -- in front of the highest bit there are zeros
    have hzero : x.toNat.testBit (w - 1 - i) = false :=
      Nat.testBit_lt_two_pow (Nat.lt_of_lt_of_le (Nat.lt_size_self _) (Nat.pow_le_pow_right (by decide) (by omega)))
    rw [BitVec.getMsbD_eq_getLsbD, ← BitVec.testBit_toNat, hzero]
    simp
  · have hpos : w - 1 - (w - x.toNat.size) + 1 = x.toNat.size := by omega
    have hone : x.toNat.testBit (w - 1 - (w - x.toNat.size)) = true := by
      refine Nat.testBit_of_two_pow_le_and_two_pow_add_one_gt (Nat.lt_size.mp (by omega)) ?_
      rw [hpos]
      exact Nat.lt_size_self _
    rw [BitVec.getMsbD_eq_getLsbD, ← BitVec.testBit_toNat, hone]
    simp [hlt]

private theorem testBit_of_dvd {n k : Nat} (h : 2 ^ k ∣ n) {i : Nat} (hi : i < k) : n.testBit i = false := by
  obtain ⟨m, rfl⟩ := h
  rw [Nat.testBit_two_pow_mul]
  simp [Nat.not_le.mpr hi]

private theorem trailingZeros_eq : trailingZeros x = if x.toNat = 0 then w else padicValNat 2 x.toNat := by
  split
  · rename_i hzero
    refine length_takeWhile_range (Nat.le_refl _) (fun i _ => ?_) fun hlt => absurd hlt (Nat.lt_irrefl _)
    rw [← BitVec.testBit_toNat, hzero]
    simp
  · rename_i hne
    have hdvd : 2 ^ padicValNat 2 x.toNat ∣ x.toNat := pow_padicValNat_dvd
    have hle : 2 ^ padicValNat 2 x.toNat ≤ x.toNat := Nat.le_of_dvd (by omega) hdvd
    have hlt : padicValNat 2 x.toNat < w := (Nat.pow_lt_pow_iff_right (by decide)).mp (Nat.lt_of_le_of_lt hle x.isLt)
    refine length_takeWhile_range (Nat.le_of_lt hlt) (fun i hi => ?_) fun _ => ?_
    · rw [← BitVec.testBit_toNat, testBit_of_dvd hdvd hi]
      rfl
    · -- the number is an odd multiple of the power
      have hodd : x.toNat.testBit (padicValNat 2 x.toNat) = true := by
        obtain ⟨m, hm⟩ := hdvd
        have hnot := pow_succ_padicValNat_not_dvd (p := 2) hne
        generalize padicValNat 2 x.toNat = k at hm hnot
        rw [hm, Nat.testBit_two_pow_mul]
        simp only [ge_iff_le, le_refl, decide_true, Nat.sub_self, Bool.true_and, Nat.testBit_zero, decide_eq_true_eq]
        by_contra heven
        obtain ⟨j, hj⟩ : 2 ∣ m := by omega
        exact hnot ⟨j, by rw [hm, hj, pow_succ, Nat.mul_assoc]⟩
      rw [← BitVec.testBit_toNat, hodd]
      rfl

private theorem trailingZeros_le : trailingZeros x ≤ w := by
  have hlen := (List.takeWhile_sublist (fun i => !x.getLsbD i) (l := List.range w)).length_le
  rwa [List.length_range] at hlen

/-- The number of ones among the lowest bits of a number that has no others. -/
private theorem countP_testBit (n : Nat) :
    ∀ {k : Nat}, k < 2 ^ n → (List.range n).countP k.testBit = (Nat.digits 2 k).count 1 := by
  induction n with
  | zero =>
    intro k hk
    obtain rfl : k = 0 := by simpa using hk
    rfl
  | succ n ih =>
    intro k hk
    have hhalf : k / 2 < 2 ^ n := by omega
    have hshift : (List.range n).countP (k.testBit ∘ Nat.succ) = (List.range n).countP (k / 2).testBit :=
      List.countP_congr fun i _ => by simp [Nat.testBit_succ]
    rw [List.range_succ_eq_map, List.countP_cons, List.countP_map, hshift, ih hhalf, Nat.testBit_zero]
    rcases Nat.eq_zero_or_pos k with rfl | hpos
    · rfl
    · rw [Nat.digits_def' (by decide) hpos, List.count_cons]
      rfl

private theorem oneBits_eq : oneBits x = (Nat.digits 2 x.toNat).count 1 := by
  rw [← countP_testBit w x.isLt]
  exact List.countP_congr fun i _ => by rw [BitVec.testBit_toNat]

end

/-! The bits are counted behind 64 - w zeros, and each count is that of the integer itself. -/

section

variable {w : Nat} (hw : w ≤ 64) (x : BitVec w)

include hw

private theorem leadingZeros_setWidth : (leadingZeros (x.setWidth 64) : Int) - (64 - w) = leadingZeros x := by
  have hsize : x.toNat.size ≤ w := Nat.size_le.mpr x.isLt
  rw [leadingZeros_eq, leadingZeros_eq, BitVec.toNat_setWidth_of_le hw]
  omega

private theorem trailingZeros_setWidth : Min.min (trailingZeros (x.setWidth 64) : Int) w = trailingZeros x := by
  have hle := trailingZeros_le x
  rw [trailingZeros_eq] at hle ⊢
  rw [trailingZeros_eq, BitVec.toNat_setWidth_of_le hw]
  split at hle
  · rename_i hzero
    simp only [hzero, if_true]
    omega
  · rename_i hne
    simp only [hne, if_false]
    omega

private theorem oneBits_setWidth : oneBits (x.setWidth 64) = oneBits x := by
  rw [oneBits_eq, oneBits_eq, BitVec.toNat_setWidth_of_le hw]

end

theorem value1?_clz_word (n : Int32) : clz.value1? (.i32 n) = some (.i32 (Int32.ofNat (leadingZeros n.toBitVec))) :=
  congrArg (fun k => some (Value.i32 (Int32.ofInt k))) (leadingZeros_setWidth (by decide) n.toBitVec)

theorem value1?_clz_long (n : Int64) : clz.value1? (.i64 n) = some (.i64 (Int64.ofNat (leadingZeros n.toBitVec))) :=
  congrArg (fun k => some (Value.i64 (Int64.ofInt k))) (Int.sub_zero _)

theorem value1?_ctz_word (n : Int32) : ctz.value1? (.i32 n) = some (.i32 (Int32.ofNat (trailingZeros n.toBitVec))) :=
  congrArg (fun k => some (Value.i32 (Int32.ofInt k))) (trailingZeros_setWidth (by decide) n.toBitVec)

theorem value1?_ctz_long (n : Int64) : ctz.value1? (.i64 n) = some (.i64 (Int64.ofNat (trailingZeros n.toBitVec))) := by
  have hle := trailingZeros_le n.toBitVec
  have hmin : Min.min (trailingZeros n.toBitVec : Int) 64 = trailingZeros n.toBitVec := by omega
  exact congrArg (fun k => some (Value.i64 (Int64.ofInt k))) hmin

theorem value1?_popcnt_word (n : Int32) : popcnt.value1? (.i32 n) = some (.i32 (Int32.ofNat (oneBits n.toBitVec))) :=
  congrArg (fun k => some (Value.i32 (Int32.ofNat k))) (oneBits_setWidth (by decide) n.toBitVec)

/-! ### Extending the sign -/

private theorem shift_amount : ∀ k : Fin 64, ((Int64.ofNat k).toBitVec.smod 64).toNat = k := by decide

theorem toBitVec_signExtend {bits : Nat} (hpos : 0 < bits) (hle : bits ≤ 64) (v : Int64) :
    (signExtend bits v).toBitVec = (v.toBitVec.setWidth bits).signExtend 64 := by
  have hshift : ((Int64.ofNat (64 - bits)).toBitVec.smod 64).toNat = 64 - bits := shift_amount ⟨64 - bits, by omega⟩
  rw [signExtend, Int64.toBitVec_shiftRight, Int64.toBitVec_shiftLeft, BitVec.shiftLeft_eq',
    BitVec.sshiftRight', hshift]
  ext i hi
  rw [← BitVec.getLsbD_eq_getElem, ← BitVec.getLsbD_eq_getElem, BitVec.getLsbD_sshiftRight, BitVec.getLsbD_signExtend]
  by_cases h : i < bits
  · -- a low bit comes back to its place
    have hin : 64 - bits + i < 64 := by omega
    have hback : 64 - bits + i - (64 - bits) = i := by omega
    simp [h, hi, hin, hback, Nat.not_le.mpr hi]
  · -- above the low bits stands the highest of them
    have hout : ¬ 64 - bits + i < 64 := by omega
    have htop : 63 - (64 - bits) = bits - 1 := by omega
    have hmove : 64 - bits < 64 := by omega
    simp [hout, h, BitVec.msb_setWidth, hpos, BitVec.getMsbD_eq_getLsbD, htop, hmove, Nat.not_le.mpr hi, hi]

/-- The signed value of the low bits. -/
theorem toInt_setWidth_of_le {w bits : Nat} (hle : bits ≤ w) (x : BitVec w) :
    (x.setWidth bits).toInt = x.toInt.bmod (2 ^ bits) := by
  rw [BitVec.toInt_setWidth, BitVec.toInt_eq_toNat_bmod]
  exact (Int.bmod_bmod_of_dvd (Nat.pow_dvd_pow 2 hle)).symm

/-- The extension of the sign gives the integer between -2^(bits - 1) and 2^(bits - 1) that the low bits leave. -/
private theorem toInt_signExtend {bits : Nat} (hpos : 0 < bits) (hle : bits ≤ 64) (v : Int64) :
    (signExtend bits v).toInt = v.toInt.bmod (2 ^ bits) := by
  change (signExtend bits v).toBitVec.toInt = v.toBitVec.toInt.bmod (2 ^ bits)
  rw [toBitVec_signExtend hpos hle, BitVec.toInt_signExtend_of_le hle, toInt_setWidth_of_le hle]

theorem toInt_extend_word {bits : Nat} (hpos : 0 < bits) (hle : bits ≤ 32) (n : Int32) :
    (signExtend bits n.toInt64).toInt32.toInt = (n.toInt.bmod (2 ^ bits)).bmod (2 ^ 32) := by
  rw [Int64.toInt_toInt32, toInt_signExtend hpos (by omega), Int32.toInt_toInt64]

private theorem toInt_extend_long {bits : Nat} (hpos : 0 < bits) (hle : bits ≤ 64) (n : Int64) :
    (signExtend bits n).toInt = (n.toInt.bmod (2 ^ bits)).bmod (2 ^ 64) := by
  rw [← toInt_signExtend hpos hle]
  exact (BitVec.toInt_bmod_cancel _).symm

/-- A builtin on a 32-bit integer gives what it means. -/
private theorem value1?_word (b : Builtin) (n : Int32) (h : b.isFloating = false) :
    b.value1? (.i32 n) = b.integer .word n.toInt := by
  have hpattern : Width.word.pattern n.toInt = n.toBitVec.toNat := Width.pattern_toInt (w := .word) n.toBitVec
  cases b with
  | clz =>
    rw [integer, hpattern, value1?_clz_word, leadingZeros_eq]
    rfl
  | ctz =>
    rw [integer, hpattern, value1?_ctz_word, trailingZeros_eq]
    rfl
  | popcnt =>
    rw [integer, hpattern, value1?_popcnt_word, oneBits_eq]
    rfl
  | toI32 => exact congrArg some (Width.wrap_eq (w := .word) (BitVec.toInt_bmod_cancel _).symm).symm
  | toI64 =>
    have hwide := (BitVec.toInt_bmod_cancel n.toInt64.toBitVec).symm
    rw [Int64.toInt_toBitVec, Int32.toInt_toInt64] at hwide
    exact congrArg some (Width.wrap_eq (w := .long) ((Int32.toInt_toInt64 n).trans hwide)).symm
  | extend8 => exact congrArg some (Width.wrap_eq (w := .word) (toInt_extend_word (by decide) (by decide) n)).symm
  | extend16 => exact congrArg some (Width.wrap_eq (w := .word) (toInt_extend_word (by decide) (by decide) n)).symm
  | _ => cases h

private theorem value1?_long (b : Builtin) (n : Int64) (h : b.isFloating = false) :
    b.value1? (.i64 n) = b.integer .long n.toInt := by
  have hpattern : Width.long.pattern n.toInt = n.toBitVec.toNat := Width.pattern_toInt (w := .long) n.toBitVec
  cases b with
  | clz =>
    rw [integer, hpattern, value1?_clz_long, leadingZeros_eq]
    rfl
  | ctz =>
    rw [integer, hpattern, value1?_ctz_long, trailingZeros_eq]
    rfl
  | popcnt =>
    rw [integer, hpattern]
    exact congrArg (fun k => some (Value.i64 (Int64.ofNat k))) (oneBits_eq n.toBitVec)
  | toI32 => exact congrArg some (Width.wrap_eq (w := .word) (Int64.toInt_toInt32 n)).symm
  | toI64 => exact congrArg some (Width.wrap_eq (w := .long) (BitVec.toInt_bmod_cancel _).symm).symm
  | extend8 => exact congrArg some (Width.wrap_eq (w := .long) (toInt_extend_long (by decide) (by decide) n)).symm
  | extend16 => exact congrArg some (Width.wrap_eq (w := .long) (toInt_extend_long (by decide) (by decide) n)).symm
  | _ => cases h

/-- A builtin on as many constants of one type as it takes gives what it means, if it takes their type. -/
theorem value?_eq_meaning {b : Builtin} {values : List Value} {t : TypeId} (hlen : values.length = b.family.arity)
    (htypes : ∀ v ∈ values, v.type = t) (htakes : b.family.takes t = true) :
    b.value? values = .ok (b.meaning values) := by
  match values with
  | [] => cases b <;> cases hlen
  | [v] =>
    obtain rfl := htypes v List.mem_cons_self
    cases v with
    | i32 n =>
      cases hfloating : b.isFloating with
      | true => simp [value?, meaning, hfloating]
      | false => simp [value?, meaning, hfloating, value1?_word b n hfloating]
    | i64 n =>
      cases hfloating : b.isFloating with
      | true => simp [value?, meaning, hfloating]
      | false => simp [value?, meaning, hfloating, value1?_long b n hfloating]
    | bool x => cases b <;> cases htakes
    | f32 x => rfl
    | f64 x => rfl
  | [v, v'] =>
    obtain rfl := htypes v List.mem_cons_self
    have hv' := htypes v' (by simp)
    cases v <;> cases v' <;> cases hv' <;> cases b <;> rfl
  | _ :: _ :: _ :: _ => cases b <;> cases hlen

end Builtin

end RainCheck
