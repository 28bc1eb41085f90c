import Mathlib.Algebra.Order.Field.Power
import Mathlib.Algebra.Order.Ring.Rat
import Mathlib.Order.WithBotTop
import Mathlib.Tactic.NormNum
import Mathlib.Tactic.Positivity
import Mathlib.Tactic.Ring
import RainCheck.Number.Double

/-!
# The numbers that floating point numbers stand for

A finite floating point number stands for a rational number, its significand times a power of two; the infinities lie on
either side of all rational numbers, and what is no number stands for nothing (`Double.number?`, `Single.number?`).

A floating point number is `Canonical`: its significand fills all digits unless its exponent is the least one.  So
* the order of doubles is the order of the numbers they stand for (`Double.le_iff`);
* the double of a single precision number stands for the same number (`Double.number?_ofSingle`).
-/

namespace RainCheck

open Float.Model (Format UnpackedFloat)
open Float.Model.UnpackedFloat

/-- The rational number with a sign, a significand and an exponent. -/
def dyadic (sign : Sign) (significand : Nat) (exponent : Int) : ℚ := (sign.apply significand : ℤ) * 2 ^ exponent

/-- The number that an unpacked floating point number stands for, if it stands for one. -/
def denoted? : UnpackedFloat → Option (WithBotTop ℚ)
  | .notANumber => none
  | .infinity .negative => some ⊥
  | .infinity .positive => some ⊤
  | .zero _ => some ((0 : ℚ) : WithBotTop ℚ)
  | .finite sign significand exponent _ => some ((dyadic sign significand exponent : ℚ) : WithBotTop ℚ)

/-- What stands for a rational number is a zero or has a significand. -/
theorem rational_cases {u : UnpackedFloat} {q : ℚ} (h : denoted? u = some (q : WithBotTop ℚ)) :
    (∃ sign, u = .zero sign ∧ q = 0) ∨ ∃ sign m e positive, u = .finite sign m e positive ∧ q = dyadic sign m e := by
  rcases u with (_ | _) | _ | sign | ⟨sign, m, e, positive⟩
  case infinity.negative => cases h
  case infinity.positive => cases h
  case notANumber => cases h
  case zero => exact .inl ⟨sign, rfl, (WithBotTop.coe_injective (Option.some.inj h)).symm⟩
  case finite => exact .inr ⟨sign, m, e, positive, rfl, (WithBotTop.coe_injective (Option.some.inj h)).symm⟩

/-- The number that a double stands for. -/
def Double.number? (x : Float) : Option (WithBotTop ℚ) := denoted? x.toModel.unpack

/-- The number that a single precision number stands for. -/
def Single.number? (x : Float32) : Option (WithBotTop ℚ) := denoted? x.toModel.unpack

/-! ### Canonical significands -/

/-- What is taken from the exponent field of a format, if the significand is read as an integer. -/
def exponentOffset (format : Format) : Int := format.exponentBias + format.mantissaBitsWithoutImplicit

/-- A significand and an exponent of a format, where only the least exponent has significands that are not full. -/
structure Canonical (format : Format) (significand : Nat) (exponent : Int) : Prop where
  lt : significand < 2 ^ (format.mantissaBitsWithoutImplicit + 1)
  least : 1 - exponentOffset format ≤ exponent
  full : 2 ^ format.mantissaBitsWithoutImplicit ≤ significand ∨ exponent = 1 - exponentOffset format
  greatest : exponent + exponentOffset format < 2 ^ format.exponentBits

/-- The significand with the implicit bit in front of the fraction field. -/
private theorem toNat_implicit {n : Nat} (fraction : BitVec n) : (1#1 ++ fraction).toNat = 2 ^ n + fraction.toNat := by
  rw [BitVec.toNat_append, ← Nat.shiftLeft_add_eq_or_of_lt fraction.isLt]
  simp [Nat.shiftLeft_eq]

private theorem toNat_implicit_pos {n : Nat} (fraction : BitVec n) : 0 < (1#1 ++ fraction).toNat := by
  rw [toNat_implicit]
  positivity

/-- What is unpacked from bits is canonical. -/
private theorem canonical_unpack {format : Format} {b : BitVec format.numBits} {sign : Sign}
    {significand : Nat} {exponent : Int}
    {positive : 0 < significand} (h : unpack format b = .finite sign significand exponent positive) :
    Canonical format significand exponent := by
  have hfraction := (unpackMantissa b).isLt
  have hexponent : ((unpackExponent b).toNat : ℤ) < 2 ^ format.exponentBits := by exact_mod_cast (unpackExponent b).isLt
  have hone : (1 : ℤ) < 2 ^ format.exponentBits := by exact_mod_cast Nat.one_lt_two_pow format.he.ne'
  delta unpack at h
  dsimp only at h
  by_cases hspecial : unpackExponent b = -.ofNat _ 1
  · rw [if_pos hspecial] at h
    by_cases hinfinite : unpackMantissa b = .ofNat _ 0
    · rw [if_pos hinfinite] at h
      cases h
    · rw [if_neg hinfinite] at h
      cases h
  rw [if_neg hspecial] at h
  by_cases hleast : unpackExponent b = .ofNat _ 0
  · -- the exponent is the least one
    rw [if_pos hleast] at h
    by_cases hzero : unpackMantissa b = .ofNat _ 0
    · rw [dif_pos hzero] at h
      cases h
    rw [dif_neg hzero] at h
    injection h with _ hsignificand hexp
    subst hsignificand hexp
    rw [hleast]
    refine ⟨by rw [Nat.pow_succ]; omega, ?_, .inr ?_, ?_⟩
    all_goals simp only [exponentOffset, BitVec.toNat_zero]; omega
  · rw [if_neg hleast] at h
    injection h with _ hsignificand hexp
    subst hsignificand hexp
    have hpos : 0 < (unpackExponent b).toNat := BitVec.toNat_pos_of_ne_zero hleast
    refine ⟨by rw [toNat_implicit, Nat.pow_succ]; omega, ?_, .inl (by rw [toNat_implicit]; omega), ?_⟩
    all_goals simp only [exponentOffset]; omega

/-! ### The order -/

section

variable {format : Format} {m n : Nat} {e f : Int}

/-- A larger exponent makes a larger number, since the significand is then full. -/
private theorem Canonical.lt_of_exponent (hm : Canonical format m e) (hn : Canonical format n f) (h : e < f) :
    (m : ℚ) * 2 ^ e < n * 2 ^ f := by
  have hfull : 2 ^ format.mantissaBitsWithoutImplicit ≤ n := by
    rcases hn.full with hfull | hleast
    · exact hfull
    · have := hm.least
      omega
  have hlt : (m : ℚ) < 2 ^ (format.mantissaBitsWithoutImplicit + 1) := by exact_mod_cast hm.lt
  have hle : (2 : ℚ) ^ format.mantissaBitsWithoutImplicit ≤ n := by exact_mod_cast hfull
  calc (m : ℚ) * 2 ^ e
    _ < 2 ^ (format.mantissaBitsWithoutImplicit + 1) * 2 ^ e := by gcongr
    _ = 2 ^ format.mantissaBitsWithoutImplicit * 2 ^ (e + 1) := by
      rw [pow_succ, zpow_add_one₀ (by norm_num)]
      ring
    _ ≤ n * 2 ^ f := by
      gcongr
      · norm_num
      · omega

/-- Numbers are compared by their exponents first. -/
private theorem Canonical.compare_eq (hm : Canonical format m e) (hn : Canonical format n f) :
    (compare e f).then (compare m n) = compare ((m : ℚ) * 2 ^ e) (n * 2 ^ f) := by
  rcases lt_trichotomy e f with h | rfl | h
  · rw [compare_lt_iff_lt.mpr h, compare_lt_iff_lt.mpr (hm.lt_of_exponent hn h)]
    rfl
  · have hpos : (0 : ℚ) < 2 ^ e := by positivity
    rw [compare_eq_iff_eq.mpr rfl, Ordering.then]
    rcases lt_trichotomy m n with h | rfl | h
    · rw [compare_lt_iff_lt.mpr h, compare_lt_iff_lt.mpr (by gcongr)]
    · rw [compare_eq_iff_eq.mpr rfl, compare_eq_iff_eq.mpr rfl]
    · rw [compare_gt_iff_gt.mpr h, compare_gt_iff_gt.mpr (by gcongr)]
  · rw [compare_gt_iff_gt.mpr h, compare_gt_iff_gt.mpr (hn.lt_of_exponent hm h)]
    rfl

end

theorem dyadic_positive (m : Nat) (e : Int) : dyadic .positive m e = m * 2 ^ e := by simp [dyadic, Sign.apply]

theorem dyadic_negative (m : Nat) (e : Int) : dyadic .negative m e = -(m * 2 ^ e) := by simp [dyadic, Sign.apply]

private theorem dyadic_pos {m : Nat} (hm : 0 < m) (e : Int) : 0 < dyadic .positive m e := by
  rw [dyadic_positive]
  positivity

private theorem dyadic_neg {m : Nat} (hm : 0 < m) (e : Int) : dyadic .negative m e < 0 := by
  rw [dyadic_negative, neg_lt_zero]
  positivity

/-- Unpacked floating point numbers of one format are ordered as the numbers they stand for. -/
private theorem le_iff_denoted {format : Format} {a b : UnpackedFloat}
    (ha : ∀ sign m e positive, a = .finite sign m e positive → Canonical format m e)
    (hb : ∀ sign m e positive, b = .finite sign m e positive → Canonical format m e) :
    a.le b = true ↔ ∃ p q, denoted? a = some p ∧ denoted? b = some q ∧ p ≤ q := by
  rcases a with (_ | _) | _ | _ | ⟨_ | _, m, e, hm⟩ <;> rcases b with (_ | _) | _ | _ | ⟨_ | _, n, f, hn⟩
  all_goals
    dsimp only [UnpackedFloat.le, UnpackedFloat.compare, denoted?]
    simp only [Option.any_some, Option.any_none, Option.some.injEq, exists_eq_left', exists_and_left, reduceCtorEq,
      false_and, exists_false, Bool.false_eq_true, WithBotTop.coe_le_coe]
  -- numbers of different signs are on different sides of zero
  case zero.finite.negative => simpa using dyadic_neg hn f
  case zero.finite.positive => simpa using (dyadic_pos hn f).le
  case finite.negative.zero => simpa using (dyadic_neg hm e).le
  case finite.positive.zero => simpa using dyadic_pos hm e
  case finite.negative.finite.positive => simpa using ((dyadic_neg hm e).trans (dyadic_pos hn f)).le
  case finite.positive.finite.negative => simpa using (dyadic_neg hn f).trans (dyadic_pos hm e)
  -- numbers of one sign are compared by their parts
  case finite.positive.finite.positive =>
    rw [(ha _ m e hm rfl).compare_eq (hb _ n f hn rfl), dyadic_positive, dyadic_positive]
    exact Std.LawfulBCmp.isLE_iff_le
  case finite.negative.finite.negative =>
    rw [(ha _ m e hm rfl).compare_eq (hb _ n f hn rfl), dyadic_negative, dyadic_negative,
      neg_le_neg_iff, Ordering.isLE_swap]
    exact Std.LawfulLECmp.isGE_iff_ge
  all_goals simp
  all_goals decide

/-! ### Packing -/

private theorem finite_congr {sign : Sign} {m n : Nat} {e f : Int} {hm : 0 < m} {hn : 0 < n} (hmn : m = n)
    (hef : e = f) : UnpackedFloat.finite sign m e hm = .finite sign n f hn := by
  subst hmn hef
  rfl

/-- The sign is kept when a double is put together from its fields. -/
private theorem sign_packComponents (sign : Sign) (field : BitVec 11) (fraction : BitVec 52) :
    Sign.ofBitVec (unpackSign (packComponents .binary64 sign field fraction)) = sign := by
  delta unpackSign packComponents
  simp only [BitVec.extractLsb]
  rw [BitVec.extractLsb'_append_eq_of_le (by decide), BitVec.extractLsb'_append_eq_of_le (by decide)]
  cases sign <;> rfl

/-- The fields of a double whose exponent is neither the least nor the one of an infinity. -/
private theorem unpack_packComponents (sign : Sign) {field : Nat} (fraction : BitVec 52)
    (hpos : 0 < field) (hlt : field < 2047) :
    unpack .binary64 (packComponents .binary64 sign (BitVec.ofNat 11 field) fraction) =
      .finite sign (1#1 ++ fraction).toNat (field - 1075) (toNat_implicit_pos fraction) := by
  have hfield : (BitVec.ofNat 11 field).toNat = field := by
    rw [BitVec.toNat_ofNat]
    omega
  have hzero : BitVec.ofNat 11 field ≠ 0#11 := by
    intro h
    rw [h] at hfield
    simp at hfield
    omega
  have hones : BitVec.ofNat 11 field ≠ -1#11 := by
    intro h
    rw [h] at hfield
    simp at hfield
    omega
  delta unpack
  dsimp only
  rw [unpackExponent_packComponents, if_neg hones, if_neg hzero, hfield, sign_packComponents]
  exact finite_congr (by rw [unpackMantissa_packComponents]) rfl

/-- A full significand of a double is kept when it is packed, unless the exponent is too large or too small. -/
private theorem unpack_pack_full (sign : Sign) {m : Nat} {e : Int} (positive : 0 < m)
    (hle : 2 ^ 52 ≤ m) (hlt : m < 2 ^ 53)
    (hleast : -1074 ≤ e) (hgreatest : e < 972) :
    (Float.Model.pack (.finite sign m e positive)).unpack = .finite sign m e positive := by
  have hlog : m.log2 = 52 := (Nat.log2_eq_iff positive.ne').mpr ⟨hle, hlt⟩
  have hfraction : (1#1 ++ BitVec.ofNat 52 m).toNat = m := by
    rw [toNat_implicit, BitVec.toNat_ofNat]
    omega
  have hpack : pack .binary64 (.finite sign m e positive) =
      packComponents .binary64 sign (BitVec.ofNat 11 (e + 1023 + 52).toNat) (BitVec.ofNat 52 m) := by
    change (if 2 ^ 11 ≤ (e + 1023 + 52).toNat + 1 then _ else if m.log2 + 1 = 53 then _ else _) = _
    rw [if_neg (by omega), if_pos (by omega)]
    rfl
  change unpack .binary64 (pack .binary64 (.finite sign m e positive)) = _
  rw [hpack, unpack_packComponents _ _ (by omega) (by omega)]
  exact finite_congr hfraction (by omega)

/-- Digits added to a significand are taken from the exponent. -/
private theorem dyadic_shift (sign : Sign) (m k : Nat) (e : Int) : dyadic sign (m <<< k) (e - k) = dyadic sign m e := by
  have hpow : (2 : ℚ) ^ k * 2 ^ (e - k) = 2 ^ e := by
    rw [← zpow_natCast, ← zpow_add₀ (by norm_num)]
    congr 1
    omega
  cases sign with
  | positive => rw [dyadic_positive, dyadic_positive, Nat.shiftLeft_eq, ← hpow]; push_cast; ring
  | negative => rw [dyadic_negative, dyadic_negative, Nat.shiftLeft_eq, ← hpow]; push_cast; ring

/-- A significand that is filled up to 53 digits is full. -/
private theorem full_shiftLeft {m : Nat} (hpos : 0 < m) (h : m.log2 ≤ 52) :
    2 ^ 52 ≤ m <<< (52 - m.log2) ∧ m <<< (52 - m.log2) < 2 ^ 53 := by
  have hsplit : 2 ^ m.log2 * 2 ^ (52 - m.log2) = 2 ^ 52 := by
    rw [← Nat.pow_add]
    congr 1
    omega
  have hlow := Nat.mul_le_mul_right (2 ^ (52 - m.log2)) (Nat.log2_self_le hpos.ne')
  have hhigh := Nat.mul_lt_mul_of_pos_right (Nat.lt_log2_self (n := m)) (Nat.two_pow_pos (52 - m.log2))
  rw [Nat.pow_succ, Nat.mul_right_comm, hsplit] at hhigh
  rw [hsplit] at hlow
  rw [Nat.shiftLeft_eq]
  omega

namespace Double

/-! ### Doubles -/

/-- Doubles are ordered as the numbers they stand for. -/
theorem le_iff {x y : Float} : x ≤ y ↔ ∃ p q, number? x = some p ∧ number? y = some q ∧ p ≤ q := by
  refine Iff.trans ?_ (le_iff_denoted (fun _ _ _ _ => canonical_unpack) fun _ _ _ _ => canonical_unpack)
  exact decide_eq_true_iff

theorem isNaN_iff {x : Float} : x.isNaN = true ↔ number? x = none := by
  change x.toModel.unpack.isNaN = true ↔ denoted? x.toModel.unpack = none
  cases x.toModel.unpack with
  | notANumber => exact iff_of_true rfl rfl
  | infinity sign => cases sign <;> exact iff_of_false Bool.false_ne_true (Option.some_ne_none _)
  | zero sign => exact iff_of_false Bool.false_ne_true (Option.some_ne_none _)
  | finite sign m e positive => exact iff_of_false Bool.false_ne_true (Option.some_ne_none _)

/-- The double of a single precision number stands for the same number. -/
theorem number?_ofSingle (x : Float32) : number? (ofSingle x) = Single.number? x := by
  unfold number? ofSingle Single.number?
  cases h : x.toModel.unpack with
  | notANumber => rfl
  | infinity sign => cases sign <;> rfl
  | zero sign => cases sign <;> rfl
  | finite sign m e positive =>
    obtain ⟨hlt, hleast, -, hgreatest⟩ := canonical_unpack h
    have hoffset : exponentOffset .binary32 = 150 := rfl
    have hlog : m.log2 < 24 := (Nat.log2_lt positive.ne').mpr hlt
    obtain ⟨hlow, hhigh⟩ := full_shiftLeft positive (by omega)
    rw [hoffset] at hleast hgreatest
    dsimp only at hgreatest ⊢
    rw [unpack_pack_full _ _ hlow hhigh (by omega) (by omega)]
    exact congrArg (fun q : ℚ => some (q : WithBotTop ℚ)) (dyadic_shift sign m _ e)

end Double

end RainCheck
