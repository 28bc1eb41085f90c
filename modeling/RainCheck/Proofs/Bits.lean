import Mathlib.Data.Finset.Card
import Mathlib.Data.Finset.Range
import RainCheck.Proofs.Evaluation

/-!
# Builtins on bits

The builtins that count bits or extend a sign are computed on 64 bits, with corrections for shorter integers: a count of
zeros loses the zeros put in front or is cut off at the width, and an extension shifts the low bits to the top and back.
What they give is said here on the bits of the integer itself, in two's complement.
* `LeadingZeros`, `TrailingZeros`: a number of zeros up to the first one from either end.
* `ones`: the places of the ones.
* `FoldsBits`: what each of the builtins is folded to on a constant, for any kind of constant made from bits.

Constants of both integer types are folded so (`value?_bits`).
-/

namespace RainCheck

namespace Builtin

variable {w : Nat}

/-- The number of zeros in front of the highest one of an integer; it counts all bits if there is no one. -/
structure LeadingZeros (x : BitVec w) (n : Nat) : Prop where
  le : n ≤ w
  zeros : ∀ i < n, x.getMsbD i = false
  one : n < w → x.getMsbD n = true

/-- The number of zeros behind the lowest one of an integer; it counts all bits if there is no one. -/
structure TrailingZeros (x : BitVec w) (n : Nat) : Prop where
  le : n ≤ w
  zeros : ∀ i < n, x.getLsbD i = false
  one : n < w → x.getLsbD n = true

/-- The places of the ones of an integer. -/
def ones (x : BitVec w) : Finset Nat := {i ∈ Finset.range w | x.getLsbD i = true}

/-- A constant, of a kind that is made from bits, is folded to a number of its bits, which the kind can hold. -/
def Counts (b : Builtin) (constant : BitVec w → Value) (x : BitVec w) (IsCount : Nat → Prop) : Prop :=
  ∃ n, IsCount n ∧ n ≤ w ∧ (BitVec.ofNat w n).toInt = n ∧
    b.value? [constant x] = .ok (some (constant (BitVec.ofNat w n)))

/-- A constant is folded to the signed value of its low bits, and what it is folded to is folded to itself. -/
def Extends (b : Builtin) (bits : Nat) (constant : BitVec w → Value) (x : BitVec w) : Prop :=
  ∃ y : BitVec w, y.toInt = (x.setWidth bits).toInt ∧ b.value? [constant x] = .ok (some (constant y)) ∧
    b.value? [constant y] = .ok (some (constant y))

/-- What the builtins on bits are folded to on a constant. -/
structure FoldsBits (constant : BitVec w → Value) (x : BitVec w) : Prop where
  clz : clz.Counts constant x fun n => LeadingZeros x n ∧ (x = 0 → n = w)
  ctz : ctz.Counts constant x fun n => TrailingZeros x n ∧ (x = 0 → n = w)
  popcnt : popcnt.Counts constant x fun n => n = (ones x).card
  extend8 : extend8.Extends 8 constant x
  extend16 : extend16.Extends 16 constant x

/-! ### Counting -/

/-- There is a place up to which a property holds from the first number on. -/
private theorem exists_first_failing (p : Nat → Bool) (n : Nat) :
    ∃ k ≤ n, (∀ i < k, p i = true) ∧ (k < n → p k = false) := by
  induction n with
  | zero => exact ⟨0, Nat.le_refl 0, by omega, by omega⟩
  | succ n ih =>
    obtain ⟨k, hk, hbefore, hstop⟩ := ih
    by_cases hlt : k < n
    · exact ⟨k, by omega, hbefore, fun _ => hstop hlt⟩
    obtain rfl : k = n := by omega
    by_cases hp : p k = true
    · refine ⟨k + 1, Nat.le_refl _, fun i hi => ?_, fun h => absurd h (Nat.lt_irrefl _)⟩
      by_cases hik : i < k
      · exact hbefore i hik
      · obtain rfl : i = k := by omega
        exact hp
    · exact ⟨k, by omega, hbefore, fun _ => by simpa using hp⟩

private theorem leadingZeros_isCount (x : BitVec w) : LeadingZeros x (leadingZeros x) := by
  obtain ⟨k, hk, hbefore, hstop⟩ := exists_first_failing (fun i => !x.getMsbD i) w
  rw [leadingZeros, length_takeWhile_range hk hbefore hstop]
  exact ⟨hk, fun i hi => by simpa using hbefore i hi, fun hlt => by simpa using hstop hlt⟩

private theorem trailingZeros_isCount (x : BitVec w) : TrailingZeros x (trailingZeros x) := by
  obtain ⟨k, hk, hbefore, hstop⟩ := exists_first_failing (fun i => !x.getLsbD i) w
  rw [trailingZeros, length_takeWhile_range hk hbefore hstop]
  exact ⟨hk, fun i hi => by simpa using hbefore i hi, fun hlt => by simpa using hstop hlt⟩

/-- Among zeros alone there is no one to stop at. -/
private theorem LeadingZeros.eq_width {x : BitVec w} {n : Nat} (h : LeadingZeros x n) (hx : x = 0) : n = w := by
  by_contra hne
  have hone := h.one (Nat.lt_of_le_of_ne h.le hne)
  simp [hx] at hone

private theorem TrailingZeros.eq_width {x : BitVec w} {n : Nat} (h : TrailingZeros x n) (hx : x = 0) : n = w := by
  by_contra hne
  have hone := h.one (Nat.lt_of_le_of_ne h.le hne)
  simp [hx] at hone

private theorem oneBits_eq_card (x : BitVec w) : oneBits x = (ones x).card :=
  (List.countP_congr (by simp)).trans List.countP_eq_length_filter

private theorem oneBits_le (x : BitVec w) : oneBits x ≤ w := by
  have hle : oneBits x ≤ (List.range w).length := List.countP_le_length
  rwa [List.length_range] at hle

/-- A number of bits is a number of the width, not a negative one. -/
private theorem toInt_ofNat_width {n : Nat} (hw : 2 * w < 2 ^ w) (h : n ≤ w) : (BitVec.ofNat w n).toInt = n := by
  have hmod : n % 2 ^ w = n := Nat.mod_eq_of_lt (by omega)
  have hpos : 2 * (BitVec.ofNat w n).toNat < 2 ^ w := by rw [BitVec.toNat_ofNat, hmod]; omega
  rw [BitVec.toInt_eq_toNat_of_lt hpos, BitVec.toNat_ofNat, hmod]

/-! ### Extending the sign -/

/-- On 32 bits the extension goes through 64 and back. -/
private theorem toBitVec_signExtend_word {bits : Nat} (hpos : 0 < bits) (hle : bits ≤ 32) (v : Int32) :
    (signExtend bits v.toInt64).toInt32.toBitVec = (v.toBitVec.setWidth bits).signExtend 32 := by
  refine BitVec.eq_of_toInt_eq ?_
  have hlow : (v.toBitVec.setWidth bits).toInt = v.toInt.bmod (2 ^ bits) := toInt_setWidth_of_le hle v.toBitVec
  change (signExtend bits v.toInt64).toInt32.toInt = _
  rw [toInt_extend_word hpos hle, ← hlow, ← BitVec.toInt_signExtend_of_le hle]
  exact BitVec.toInt_bmod_cancel _

/-- The low bits of an extension are those that were extended. -/
private theorem setWidth_signExtend {bits : Nat} (hle : bits ≤ w) (z : BitVec bits) :
    (z.signExtend w).setWidth bits = z := by
  ext i hi
  have hw : i < w := by omega
  simp [hi, hw, BitVec.getElem_signExtend]

/-! ### The builtins -/

private theorem extends_of_signExtend {b : Builtin} {bits : Nat} {constant : BitVec w → Value} (hle : bits ≤ w)
    (h : ∀ x : BitVec w, b.value? [constant x] = .ok (some (constant ((x.setWidth bits).signExtend w))))
    (x : BitVec w) :
    b.Extends bits constant x := by
  refine ⟨(x.setWidth bits).signExtend w, BitVec.toInt_signExtend_of_le hle, h x, ?_⟩
  have htwice := h ((x.setWidth bits).signExtend w)
  rwa [setWidth_signExtend hle] at htwice

section

variable {b : Builtin} {bits : Nat} (hpos : 0 < bits) (h : ∀ v, b.value1? v = extend bits v)

include hpos h

private theorem extends_word (hle : bits ≤ 32) (x : BitVec 32) : b.Extends bits (fun x => .i32 (.ofBitVec x)) x := by
  refine extends_of_signExtend hle (fun x => ?_) x
  have hbits := toBitVec_signExtend_word hpos hle (.ofBitVec x)
  rw [Int32.toBitVec_ofBitVec] at hbits
  rw [value?, h, ← hbits]
  rfl

private theorem extends_long (hle : bits ≤ 64) (x : BitVec 64) : b.Extends bits (fun x => .i64 (.ofBitVec x)) x := by
  refine extends_of_signExtend hle (fun x => ?_) x
  have hbits := toBitVec_signExtend hpos hle (.ofBitVec x)
  rw [Int64.toBitVec_ofBitVec] at hbits
  rw [value?, h, ← hbits]
  rfl

end

/-- A builtin that gives the number of zeros or ones of an integer as a constant of its type counts them. -/
private theorem counts_of_value {b : Builtin} {constant : BitVec w → Value} {x : BitVec w}
    {IsCount : Nat → Prop} {n : Nat}
    (hw : 2 * w < 2 ^ w) (hcount : IsCount n) (hle : n ≤ w)
    (hvalue : b.value1? (constant x) = some (constant (BitVec.ofNat w n))) : b.Counts constant x IsCount :=
  ⟨n, hcount, hle, toInt_ofNat_width hw hle, congrArg Except.ok hvalue⟩

/--
The builtins on bits give, on every constant of an integer type, the counts of its bits and the signed values of its low
bits, as constants of the same type.
-/
theorem value?_bits :
    (∀ v : Int32, FoldsBits (fun x => .i32 (.ofBitVec x)) v.toBitVec) ∧
    (∀ v : Int64, FoldsBits (fun x => .i64 (.ofBitVec x)) v.toBitVec) := by
  refine ⟨fun v => ?_, fun v => ?_⟩
  · -- counted behind 32 zeros, and the count is corrected
    have hclz := leadingZeros_isCount v.toBitVec
    have hctz := trailingZeros_isCount v.toBitVec
    exact {
      clz := counts_of_value (by decide) ⟨hclz, hclz.eq_width⟩ hclz.le (value1?_clz_word v)
      ctz := counts_of_value (by decide) ⟨hctz, hctz.eq_width⟩ hctz.le (value1?_ctz_word v)
      popcnt := counts_of_value (by decide) (oneBits_eq_card _) (oneBits_le _) (value1?_popcnt_word v)
      extend8 := extends_word (by decide) (fun _ => rfl) (by decide) v.toBitVec
      extend16 := extends_word (by decide) (fun _ => rfl) (by decide) v.toBitVec }
  · have hclz := leadingZeros_isCount v.toBitVec
    have hctz := trailingZeros_isCount v.toBitVec
    exact {
      clz := counts_of_value (by decide) ⟨hclz, hclz.eq_width⟩ hclz.le (value1?_clz_long v)
      ctz := counts_of_value (by decide) ⟨hctz, hctz.eq_width⟩ hctz.le (value1?_ctz_long v)
      popcnt := counts_of_value (by decide) (oneBits_eq_card _) (oneBits_le _) rfl
      extend8 := extends_long (by decide) (fun _ => rfl) (by decide) v.toBitVec
      extend16 := extends_long (by decide) (fun _ => rfl) (by decide) v.toBitVec }

end Builtin

end RainCheck
