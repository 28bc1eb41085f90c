import Mathlib.Algebra.Order.Floor.Ring
import Mathlib.Data.Rat.Floor
import Mathlib.Tactic.Linarith
import RainCheck.Proofs.Evaluation
import RainCheck.Proofs.FloatingNumbers

/-!
# Conversions of floating point numbers to integers

A conversion to an integer drops the fraction and stays within the bounds of the integers of its
width (`saturated`).  It compares the number with the bounds as doubles first, and the highest
64-bit integer is not a double: `2 ^ 63` stands for it. All the same
* what is compared is enough: between the doubles for the bounds, the number without its fraction is a 64-bit integer
  between the bounds (`Guards.truncated`, `Guards.within`);
* the conversion of every floating point number is the one of the exact number that it stands for,
  and larger numbers are not converted to smaller integers (`conversions_saturate`).
-/

namespace RainCheck

open Float.Model.UnpackedFloat (Sign)

/-- A rational number without its fraction. -/
def towardsZero (q : ℚ) : ℤ := if 0 ≤ q then ⌊q⌋ else ⌈q⌉

/-- A number without its fraction and kept within bounds, and zero for what is no number. -/
def saturated (lowest highest : ℤ) : Option (WithBotTop ℚ) → ℤ
  | none => 0
  | some ⊥ => lowest
  | some ⊤ => highest
  | some (q : ℚ) => max lowest (min highest (towardsZero q))

namespace Width

/-- The lowest integer of a width. -/
def lowest (w : Width) : ℤ := -2 ^ (w.bits - 1)

/-- The highest integer of a width. -/
def highest (w : Width) : ℤ := 2 ^ (w.bits - 1) - 1

/-- The conversion to integers of a width. -/
def conversion : Width → Builtin
  | .word => .toI32
  | .long => .toI64

/-- A constant is converted to an integer of a width. -/
structure Converts (w : Width) (v : Value) (n : ℤ) : Prop where
  lowest_le : w.lowest ≤ n
  le_highest : n ≤ w.highest
  value : w.conversion.value? [v] = .ok (some (w.wrap n))

/-- Constants of a floating point type are converted to integers of a width as the numbers that they stand for. -/
structure Saturates (w : Width) {α : Type} (constant : α → Value) (number? : α → Option (WithBotTop ℚ)) : Prop where
  converts : ∀ x, w.Converts (constant x) (saturated w.lowest w.highest (number? x))
  monotone : ∀ x y p q m n, number? x = some p → number? y = some q → p ≤ q →
    w.Converts (constant x) m → w.Converts (constant y) n → m ≤ n

/-- The conversion without bounds is used only for doubles that are 64-bit integers without their fraction. -/
def ConvertsInside (w : Width) : Prop :=
  ∀ x, Double.side x (.ofInt w.lowest) (.ofInt w.highest) = .within →
    ∃ q : ℚ, Double.number? x = some (q : WithBotTop ℚ) ∧ Int64.minValue.toInt ≤ towardsZero q ∧
      towardsZero q ≤ Int64.maxValue.toInt ∧ (Double.toInt64 x).toInt = towardsZero q

end Width

/-! ### Dropping the fraction -/

private theorem towardsZero_neg (q : ℚ) : towardsZero (-q) = -towardsZero q := by
  unfold towardsZero
  rcases lt_trichotomy q 0 with h | rfl | h
  · rw [if_pos (by linarith), if_neg (by linarith), Int.floor_neg]
  · simp
  · rw [if_neg (by linarith), if_pos (by linarith), Int.ceil_neg]

@[simp]
theorem towardsZero_intCast (n : ℤ) : towardsZero n = n := by simp [towardsZero]

private theorem towardsZero_mono {p q : ℚ} (h : p ≤ q) : towardsZero p ≤ towardsZero q := by
  unfold towardsZero
  split_ifs with hp hq hq
  · exact Int.floor_le_floor h
  · exact absurd (hp.trans h) hq
  · -- the integer above a negative number is not above zero
    have hceil : ⌈p⌉ ≤ 0 := Int.ceil_le.mpr (by push_cast; linarith)
    have hfloor : 0 ≤ ⌊q⌋ := Int.floor_nonneg.mpr hq
    omega
  · exact Int.ceil_le_ceil h

/-- A number less than one below an integer that is not positive is rounded up to it, if not above. -/
private theorem le_towardsZero {n : ℤ} {q : ℚ} (hn : n ≤ 0) (h : (n : ℚ) - 1 < q) : n ≤ towardsZero q := by
  unfold towardsZero
  split_ifs with hq
  · have hfloor : 0 ≤ ⌊q⌋ := Int.floor_nonneg.mpr hq
    omega
  · have hlt : n - 1 < ⌈q⌉ := Int.lt_ceil.mpr (by exact_mod_cast h)
    omega

private theorem towardsZero_le {n : ℤ} {q : ℚ} (hn : 0 ≤ n) (h : q < n + 1) : towardsZero q ≤ n := by
  have hle := le_towardsZero (n := -n) (q := -q) (by omega) (by push_cast; linarith)
  rw [towardsZero_neg] at hle
  omega

/-! ### Keeping within bounds -/

section

variable {lowest highest : ℤ}

@[simp]
theorem saturated_rational (q : ℚ) :
    saturated lowest highest (some (q : WithBotTop ℚ)) = max lowest (min highest (towardsZero q)) := rfl

private theorem saturated_bounds (hlow : lowest ≤ 0) (hhigh : 0 ≤ highest) (number : Option (WithBotTop ℚ)) :
    lowest ≤ saturated lowest highest number ∧ saturated lowest highest number ≤ highest := by
  rcases number with _ | p
  · exact ⟨hlow, hhigh⟩
  cases p using WithBotTop.rec with
  | bot => exact ⟨le_refl lowest, hlow.trans hhigh⟩
  | top => exact ⟨hlow.trans hhigh, le_refl highest⟩
  | coe q =>
    rw [saturated_rational]
    omega

private theorem saturated_mono (hlow : lowest ≤ 0) (hhigh : 0 ≤ highest) {p q : WithBotTop ℚ} (hpq : p ≤ q) :
    saturated lowest highest (some p) ≤ saturated lowest highest (some q) := by
  cases p using WithBotTop.rec with
  | bot => exact (saturated_bounds hlow hhigh (some q)).1
  | top => rw [top_le_iff.mp hpq]
  | coe p =>
    cases q using WithBotTop.rec with
    | bot => simp at hpq
    | top => exact (saturated_bounds hlow hhigh _).2
    | coe q =>
      have hle : towardsZero p ≤ towardsZero q := towardsZero_mono (WithBotTop.coe_le_coe.mp hpq)
      simp only [saturated_rational]
      omega

/-- What is not above the lower bound is replaced by it. -/
private theorem saturated_of_le (hlow : lowest ≤ 0) (hhigh : 0 ≤ highest) {p : WithBotTop ℚ}
    (hp : p ≤ ((lowest : ℚ) : WithBotTop ℚ)) :
    saturated lowest highest (some p) = lowest := by
  have hkept := saturated_mono hlow hhigh hp
  have hbounds := saturated_bounds hlow hhigh (some p)
  simp only [saturated_rational, towardsZero_intCast] at hkept
  omega

private theorem saturated_of_ge (hlow : lowest ≤ 0) (hhigh : 0 ≤ highest) {p : WithBotTop ℚ}
    (hp : ((highest : ℚ) : WithBotTop ℚ) ≤ p) :
    saturated lowest highest (some p) = highest := by
  have hkept := saturated_mono hlow hhigh hp
  have hbounds := saturated_bounds hlow hhigh (some p)
  simp only [saturated_rational, towardsZero_intCast] at hkept
  omega

end

/-! ### Doubles without their fraction -/

namespace Double

/-- A shift of the significand drops the fraction. -/
private theorem floor_dyadic (m : Nat) (e : Int) :
    ⌊(m : ℚ) * 2 ^ e⌋ = (if 0 ≤ e then m <<< e.toNat else m >>> (-e).toNat : Nat) := by
  split_ifs with he
  · obtain ⟨k, rfl⟩ := Int.eq_ofNat_of_zero_le he
    have hint : (m : ℚ) * 2 ^ (k : ℤ) = ((m * 2 ^ k : ℕ) : ℤ) := by push_cast; rfl
    rw [hint, Int.floor_intCast, Int.toNat_natCast, Nat.shiftLeft_eq]
  · obtain ⟨k, hk⟩ : ∃ k : Nat, e = -(k : ℤ) := ⟨(-e).toNat, by omega⟩
    subst hk
    have hquotient : (m : ℚ) * 2 ^ (-(k : ℤ)) = ((m : ℤ) : ℚ) / ((2 ^ k : ℕ) : ℚ) := by
      rw [zpow_neg, zpow_natCast, div_eq_mul_inv]
      push_cast
      rfl
    rw [hquotient, Rat.floor_intCast_div_natCast, neg_neg, Int.toNat_natCast, Nat.shiftRight_eq_div_pow]
    push_cast
    rfl

/-- What is left of a finite double is the number it stands for, without the fraction. -/
private theorem whole_eq {x : Float} {q : ℚ} (h : number? x = some (q : WithBotTop ℚ)) : whole x = towardsZero q := by
  unfold whole
  rcases rational_cases h with ⟨sign, hx, rfl⟩ | ⟨sign, m, e, positive, hx, rfl⟩
  · simp [hx, towardsZero]
  have hfloor : towardsZero ((m : ℚ) * 2 ^ e) = ⌊(m : ℚ) * 2 ^ e⌋ := if_pos (by positivity)
  rw [hx]
  cases sign with
  | positive => rw [dyadic_positive, hfloor, floor_dyadic]; rfl
  | negative => rw [dyadic_negative, towardsZero_neg, hfloor, floor_dyadic]; rfl

private theorem isFinite_of_number? {x : Float} {q : ℚ} (h : number? x = some (q : WithBotTop ℚ)) :
    x.isFinite = true := by
  change x.toModel.unpack.isFinite = true
  rcases rational_cases h with ⟨sign, hx, -⟩ | ⟨sign, m, e, positive, hx, -⟩
  · rw [hx]
    rfl
  · rw [hx]
    rfl

/-- The conversion without bounds, where the result is a 64-bit integer. -/
private theorem toInt_toInt64 {x : Float} {q : ℚ} (h : number? x = some (q : WithBotTop ℚ))
    (hlow : Int64.minValue.toInt ≤ towardsZero q) (hhigh : towardsZero q ≤ Int64.maxValue.toInt) :
    (toInt64 x).toInt = towardsZero q := by
  rw [← whole_eq h] at hlow hhigh ⊢
  rw [toInt64, if_pos ⟨isFinite_of_number? h, hlow, hhigh⟩]
  exact Int64.toInt_ofInt_of_le hlow (Int.lt_add_one_of_le hhigh)

/-! ### Comparing with the bounds -/

/-- Where a number lies with respect to two bounds. -/
inductive Lies (least greatest : ℚ) : Option (WithBotTop ℚ) → Side → Prop
  | nowhere : Lies least greatest none .nowhere
  | below {p : WithBotTop ℚ} (h : p ≤ (least : WithBotTop ℚ)) : Lies least greatest (some p) .below
  | above {p : WithBotTop ℚ} (h : (greatest : WithBotTop ℚ) ≤ p) : Lies least greatest (some p) .above
  | within {q : ℚ} (hlow : least < q) (hhigh : q < greatest) : Lies least greatest (some (q : WithBotTop ℚ)) .within

/-- Bounds whose doubles are not inside of them, and not outside by more than one. -/
structure Guards (lowest highest : Int64) (least greatest : ℚ) : Prop where
  number_lowest : number? (ofInt64 lowest) = some (least : WithBotTop ℚ)
  number_highest : number? (ofInt64 highest) = some (greatest : WithBotTop ℚ)
  least_le : least ≤ lowest.toInt
  le_least : lowest.toInt - 1 ≤ least
  le_greatest : highest.toInt ≤ greatest
  greatest_le : greatest ≤ highest.toInt + 1
  nonpos : lowest.toInt ≤ 0
  nonneg : 0 ≤ highest.toInt

section

variable {lowest highest : Int64} {least greatest : ℚ} (h : Guards lowest highest least greatest) (x : Float)

include h

/-- Comparing a double with the doubles for the bounds tells where its number lies. -/
private theorem Guards.lies : Lies least greatest (number? x) (side x lowest highest) := by
  unfold side
  cases hp : number? x with
  | none =>
    rw [if_pos (isNaN_iff.mpr hp)]
    exact .nowhere
  | some p =>
    have hnan : ¬x.isNaN = true := by
      intro hnan
      rw [isNaN_iff.mp hnan] at hp
      cases hp
    have hlow : x ≤ ofInt64 lowest ↔ p ≤ (least : WithBotTop ℚ) := by simp [le_iff, hp, h.number_lowest]
    have hhigh : ofInt64 highest ≤ x ↔ (greatest : WithBotTop ℚ) ≤ p := by simp [le_iff, hp, h.number_highest]
    rw [if_neg hnan]
    split_ifs with hbelow habove
    · exact .below (hlow.mp hbelow)
    · exact .above (hhigh.mp habove)
    rw [hlow, not_le] at hbelow
    rw [hhigh, not_le] at habove
    -- the infinities are not between rational numbers
    cases p using WithBotTop.rec with
    | bot => exact absurd hbelow not_lt_bot
    | top => exact absurd habove not_top_lt
    | coe q => exact .within (WithBotTop.coe_lt_coe.mp hbelow) (WithBotTop.coe_lt_coe.mp habove)

/-- Between the doubles for the bounds, a number without its fraction is between the bounds. -/
theorem Guards.truncated {q : ℚ} (hlow : least < q) (hhigh : q < greatest) :
    lowest.toInt ≤ towardsZero q ∧ towardsZero q ≤ highest.toInt :=
  ⟨le_towardsZero h.nonpos (lt_of_le_of_lt h.le_least hlow),
    towardsZero_le h.nonneg (lt_of_lt_of_le hhigh h.greatest_le)⟩

/-- Between the doubles for the bounds, a double without its fraction is a 64-bit integer. -/
theorem Guards.within (hx : side x lowest highest = .within) :
    ∃ q : ℚ, number? x = some (q : WithBotTop ℚ) ∧ Int64.minValue.toInt ≤ towardsZero q ∧
      towardsZero q ≤ Int64.maxValue.toInt ∧ (toInt64 x).toInt = towardsZero q := by
  have hlies := h.lies x
  generalize hnumber : number? x = number at hlies
  rw [hx] at hlies
  cases hlies with
  | within hlow hhigh =>
    obtain ⟨hle, hge⟩ := h.truncated hlow hhigh
    have hmin := hle.trans' lowest.minValue_le_toInt
    have hmax := hge.trans highest.toInt_le
    exact ⟨_, rfl, hmin, hmax, toInt_toInt64 hnumber hmin hmax⟩

/-- A double is converted as the number it stands for. -/
private theorem Guards.toInt_saturate :
    (saturate x lowest highest).toInt = saturated lowest.toInt highest.toInt (number? x) := by
  have hlies := h.lies x
  have hwithin := h.within x
  unfold saturate
  generalize number? x = number, side x lowest highest = s at hlies hwithin
  cases hlies with
  | nowhere => rfl
  | below hp => exact (saturated_of_le h.nonpos h.nonneg (hp.trans (by simpa using h.least_le))).symm
  | above hp => exact (saturated_of_ge h.nonpos h.nonneg (le_trans (by simpa using h.le_greatest) hp)).symm
  | within hlow hhigh =>
    obtain ⟨q, hq, -, -, hvalue⟩ := hwithin rfl
    obtain ⟨hle, hge⟩ := h.truncated hlow hhigh
    obtain rfl := WithBotTop.coe_injective (Option.some.inj hq)
    change (toInt64 x).toInt = _
    rw [hvalue, saturated_rational]
    omega

end

/-! ### The bounds -/

private theorem number?_of_unpack {x : Float} {sign : Sign} {m : Nat} {e : Int} {positive : 0 < m}
    (h : x.toModel.unpack = .finite sign m e positive) : number? x = some ((dyadic sign m e : ℚ) : WithBotTop ℚ) := by
  rw [number?, h]
  rfl

/-- The bounds of the 32-bit integers are doubles. -/
private theorem guards_word : Guards Int32.minValue.toInt64 Int32.maxValue.toInt64 (-2 ^ 31) (2 ^ 31 - 1) where
  number_lowest := by
    have h : (ofInt64 Int32.minValue.toInt64).toModel.unpack = .finite .negative (2 ^ 52) (-21) (by decide) := rfl
    rw [number?_of_unpack h]
    norm_num [dyadic, Sign.apply]
  number_highest := by
    have h : (ofInt64 Int32.maxValue.toInt64).toModel.unpack = .finite .positive (2 ^ 53 - 2 ^ 22)
        (-22) (by decide) := rfl
    rw [number?_of_unpack h]
    norm_num [dyadic, Sign.apply]
  least_le := by decide +kernel
  le_least := by decide +kernel
  le_greatest := by decide +kernel
  greatest_le := by decide +kernel
  nonpos := by decide
  nonneg := by decide

/-- The highest 64-bit integer is not a double, but the integer above it is one. -/
private theorem guards_long : Guards Int64.minValue Int64.maxValue (-2 ^ 63) (2 ^ 63) where
  number_lowest := by
    have h : (ofInt64 Int64.minValue).toModel.unpack = .finite .negative (2 ^ 52) 11 (by decide) := rfl
    rw [number?_of_unpack h]
    norm_num [dyadic, Sign.apply]
  number_highest := by
    have h : (ofInt64 Int64.maxValue).toModel.unpack = .finite .positive (2 ^ 52) 11 (by decide) := rfl
    rw [number?_of_unpack h]
    norm_num [dyadic, Sign.apply]
  least_le := by decide +kernel
  le_least := by decide +kernel
  le_greatest := by decide +kernel
  greatest_le := by decide +kernel
  nonpos := by decide
  nonneg := by decide

end Double

/-! ### The conversions -/

namespace Width

variable (w : Width)

private theorem lowest_nonpos : w.lowest ≤ 0 := by cases w <;> decide

private theorem highest_nonneg : 0 ≤ w.highest := by cases w <;> decide

/-- An integer within the bounds is the value of its constant. -/
private theorem wrap_inj {m n : ℤ} (hm : w.lowest ≤ m ∧ m ≤ w.highest) (hn : w.lowest ≤ n ∧ n ≤ w.highest)
    (h : w.wrap m = w.wrap n) : m = n := by
  cases w with
  | word =>
    injection h with h
    have hvalue := congrArg Int32.toInt h
    simp only [lowest, highest, bits] at hm hn
    rwa [Int32.toInt_ofInt_of_le (by omega) (by omega), Int32.toInt_ofInt_of_le (by omega) (by omega)] at hvalue
  | long =>
    injection h with h
    have hvalue := congrArg Int64.toInt h
    simp only [lowest, highest, bits] at hm hn
    rwa [Int64.toInt_ofInt_of_le (by omega) (by omega), Int64.toInt_ofInt_of_le (by omega) (by omega)] at hvalue

variable {w} in
private theorem Converts.unique {v : Value} {m n : ℤ} (hm : w.Converts v m) (hn : w.Converts v n) : m = n := by
  have h := hm.value.symm.trans hn.value
  injection h with h
  injection h with h
  exact w.wrap_inj ⟨hm.lowest_le, hm.le_highest⟩ ⟨hn.lowest_le, hn.le_highest⟩ h

/-- A conversion of constants that gives the integer for their numbers does not reverse their order. -/
private theorem saturates_of_converts {α : Type} {constant : α → Value} {number? : α → Option (WithBotTop ℚ)}
    (h : ∀ x, w.Converts (constant x) (saturated w.lowest w.highest (number? x))) : w.Saturates constant number? := by
  refine ⟨h, ?_⟩
  intro x y p q m n hx hy hpq hm hn
  rw [hm.unique (h x), hn.unique (h y), hx, hy]
  exact saturated_mono w.lowest_nonpos w.highest_nonneg hpq

private theorem converts_double (x : Float) :
    w.Converts (.f64 x) (saturated w.lowest w.highest (Double.number? x)) := by
  obtain ⟨hlow, hhigh⟩ := saturated_bounds w.lowest_nonpos w.highest_nonneg (Double.number? x)
  refine ⟨hlow, hhigh, ?_⟩
  cases w with
  | word =>
    have h := Double.guards_word.toInt_saturate x
    -- the bounds that are compared with have the values of the bounds of the width
    change _ = saturated word.lowest word.highest _ at h
    rw [← h, wrap, Int32.ofInt_int64ToInt]
    rfl
  | long =>
    have h := Double.guards_long.toInt_saturate x
    change _ = saturated long.lowest long.highest _ at h
    rw [← h, wrap, Int64.ofInt_toInt]
    rfl

/-- A single precision number is converted as the double for it, which stands for the same number. -/
private theorem converts_single (x : Float32) :
    w.Converts (.f32 x) (saturated w.lowest w.highest (Single.number? x)) := by
  have h := w.converts_double (Double.ofSingle x)
  rw [Double.number?_ofSingle] at h
  refine ⟨h.lowest_le, h.le_highest, ?_⟩
  rw [← h.value]
  cases w <;> rfl

private theorem convertsInside : w.ConvertsInside := by
  intro x hx
  cases w with
  | word => exact Double.guards_word.within x hx
  | long => exact Double.guards_long.within x hx

end Width

/--
Every floating point number is converted to the integer that is left of its exact value without the
fraction, kept within the bounds of the width, in a way that keeps the order.  The conversion
without bounds is only used where it has a value, though the double for the highest 64-bit integer
is above it.
-/
theorem conversions_saturate :
    (∀ w : Width, w.Saturates .f64 Double.number? ∧ w.Saturates .f32 Single.number? ∧ w.ConvertsInside) ∧
    Double.number? (Double.ofInt64 Int64.maxValue) = some ((2 ^ 63 : ℚ) : WithBotTop ℚ) := by
  refine ⟨fun w => ⟨?_, ?_, w.convertsInside⟩, Double.guards_long.number_highest⟩
  · exact w.saturates_of_converts w.converts_double
  · exact w.saturates_of_converts w.converts_single

-- the last double below the bound that is no double, and the first one that is cut
example : Builtin.saturate64 (Float.ofBits 0x43DFFFFFFFFFFFFF) = 9223372036854774784 ∧
    Builtin.saturate64 (Float.ofBits 0x43E0000000000000) = 9223372036854775807 := by decide +kernel

end RainCheck
