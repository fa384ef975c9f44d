import CanCatalog.Proofs.Binary64.Quotients
import Mathlib.Algebra.Order.Field.Power
import Mathlib.Algebra.Order.Ring.Rat
import Mathlib.Tactic.NormNum

/-!
# Decimals and their values

A decimal is digits that are scaled by a power of ten, and its value is a
rational number. The power itself is never computed when it is far from zero: its
exponent is moved to where it just no longer matters, because an exponent may be
a literal of any length. That this is harmless is the point here. A decimal of
which the exponent is moved down is infinite before and after, unless it is
zero; one of which the exponent is moved up is less than half of the smallest
unit before and after, however many digits it has, and so it is zero.

So the cut is not to be seen, and a decimal is rounded as the quotient that it
is (`ofDecimal_eq_roundDecimal`). What is known of quotients then holds for
decimals, and in their own terms: the nearest double depends on nothing but the
value, and it is finite exactly if the value is below `2^1024 - 2^970`.
-/

namespace CanCatalog.Binary64

variable {negative : Bool} {digits : Nat} {exponent : Int}

/-- **The magnitude of a decimal**, as a number. -/
def decimalValue (digits : Nat) (exponent : Int) : ℚ :=
  digits * 10 ^ exponent

/-- A decimal is the quotient of which it is read. -/
theorem decimalValue_eq_div (digits : Nat) (exponent : Int) :
    decimalValue digits exponent
      = ((digits * 10 ^ exponent.toNat : Nat) : ℚ)
        / ((10 ^ (-exponent).toNat : Nat) : ℚ) := by
  unfold decimalValue
  obtain ⟨k, rfl | rfl⟩ := exponent.eq_nat_or_neg
  · simp
  · simp [div_eq_mul_inv]

/-- The value of a decimal is larger if its exponent is. -/
theorem decimalValue_mono (digits : Nat) {a b : Int} (h : a ≤ b) :
    decimalValue digits a ≤ decimalValue digits b :=
  mul_le_mul_of_nonneg_left (zpow_le_zpow_right₀ (by norm_num) h)
    (Nat.cast_nonneg digits)

/-- The least whole number that is rounded to infinity, as it is written. -/
theorem cast_wholeCeiling : (wholeCeiling : ℚ) = 2 ^ 1024 - 2 ^ 970 := by
  have hsum : wholeCeiling + 2 ^ 970 = 2 ^ 1024 := by decide +kernel
  have hcast := congrArg (fun k : Nat => (k : ℚ)) hsum
  simp only [Nat.cast_add, Nat.cast_pow, Nat.cast_ofNat] at hcast
  exact eq_sub_of_add_eq hcast

/-! ## Decimals as quotients -/

/-- **The double nearest to a decimal as it is written**, with the power of ten
computed in full. -/
def roundDecimal (negative : Bool) (digits : Nat) (exponent : Int) : Binary64 :=
  round negative (digits * 10 ^ exponent.toNat) (10 ^ (-exponent).toNat)

/-- **Where decimals become infinite**, if they are rounded as they are
written. -/
theorem isFinite_roundDecimal_iff :
    (roundDecimal negative digits exponent).isFinite = true
      ↔ decimalValue digits exponent < wholeCeiling := by
  have hpos : 0 < 10 ^ (-exponent).toNat := Nat.pow_pos (by decide)
  have hcast : (0 : ℚ) < ((10 ^ (-exponent).toNat : Nat) : ℚ) := by
    exact_mod_cast hpos
  rw [decimalValue_eq_div, div_lt_iff₀ hcast]
  refine (isFinite_round_iff hpos).trans ?_
  exact_mod_cast Iff.rfl

/-- Above the exponents that matter all decimals but zero are too large. -/
theorem wholeCeiling_le_decimalValue (hdigits : 0 < digits)
    (hlarge : decimalCeiling ≤ exponent) :
    (wholeCeiling : ℚ) ≤ decimalValue digits exponent := by
  have hpower : wholeCeiling ≤ 10 ^ 400 := by decide +kernel
  have hone : (1 : ℚ) ≤ digits := Nat.one_le_cast.2 hdigits
  calc (wholeCeiling : ℚ)
      ≤ 10 ^ decimalCeiling := by
        unfold decimalCeiling
        exact_mod_cast hpower
    _ ≤ digits * 10 ^ decimalCeiling :=
        le_mul_of_one_le_left (by positivity) hone
    _ ≤ decimalValue digits exponent := decimalValue_mono digits hlarge

/-- **Above the exponents that matter decimals are infinite**, unless they are
zero. -/
theorem roundDecimal_of_large (hdigits : 0 < digits)
    (hlarge : decimalCeiling ≤ exponent) :
    roundDecimal negative digits exponent = infinity negative :=
  round_of_not_isFinite fun hfinite =>
    not_lt.2 (wholeCeiling_le_decimalValue hdigits hlarge)
      (isFinite_roundDecimal_iff.1 hfinite)

/-- **Below the exponents that matter decimals are zero.** A digit is worth less
than the power of ten that is taken off for it. -/
theorem roundDecimal_of_small (hsmall : exponent ≤ decimalFloor digits) :
    roundDecimal negative digits exponent = zero negative := by
  obtain ⟨hwhole, hplaces⟩ :
      exponent.toNat = 0 ∧ 400 + digits.log2 ≤ (-exponent).toNat := by
    unfold decimalFloor at hsmall
    omega
  have hunits : 2 * (2 * one) ≤ 10 ^ 400 := by decide +kernel
  refine round_of_small ?_
  rw [hwhole, Nat.pow_zero, Nat.mul_one]
  calc 2 * (digits * one)
      < 2 * (2 ^ (digits.log2 + 1) * one) :=
        Nat.mul_lt_mul_of_pos_left
          (Nat.mul_lt_mul_of_pos_right Nat.lt_log2_self one_pos) Nat.two_pos
    _ = 2 * (2 * one) * 2 ^ digits.log2 := by
        rw [Nat.pow_succ]
        ac_rfl
    _ ≤ 10 ^ 400 * 10 ^ digits.log2 :=
        Nat.mul_le_mul hunits (Nat.pow_le_pow_left (by decide) _)
    _ = 10 ^ (400 + digits.log2) := by rw [Nat.pow_add]
    _ ≤ 10 ^ (-exponent).toNat := Nat.pow_le_pow_right (by decide) hplaces

/-- Zero is zero with any exponent. -/
theorem roundDecimal_zero (exponent : Int) :
    roundDecimal negative 0 exponent = zero negative := by
  refine round_of_small ?_
  rw [Nat.zero_mul, Nat.zero_mul]
  exact Nat.pow_pos (by decide)

/-- **Moving an exponent makes no difference**: a decimal is rounded as it is
written. -/
theorem ofDecimal_eq_roundDecimal (negative : Bool) (digits : Nat)
    (exponent : Int) :
    ofDecimal negative digits exponent
      = roundDecimal negative digits exponent := by
  have hfloor : decimalFloor digits ≤ decimalCeiling := by
    unfold decimalFloor decimalCeiling
    omega
  show roundDecimal negative digits (clampExponent digits exponent) = _
  unfold clampExponent
  rcases lt_or_ge exponent (decimalFloor digits) with hlow | hlow
  · rw [max_eq_left (le_trans (min_le_left _ _) hlow.le),
      roundDecimal_of_small le_rfl, roundDecimal_of_small hlow.le]
  · rcases le_or_gt exponent decimalCeiling with hhigh | hhigh
    · rw [min_eq_left hhigh, max_eq_right hlow]
    · rw [min_eq_right hhigh.le, max_eq_right hfloor]
      rcases Nat.eq_zero_or_pos digits with rfl | hdigits
      · rw [roundDecimal_zero, roundDecimal_zero]
      · rw [roundDecimal_of_large hdigits le_rfl,
          roundDecimal_of_large hdigits hhigh.le]

/-! ## Values -/

/-- **Where decimals become infinite.** -/
theorem isFinite_ofDecimal_iff {negative : Bool} {digits : Nat}
    {exponent : Int} :
    (ofDecimal negative digits exponent).isFinite = true
      ↔ decimalValue digits exponent < 2 ^ 1024 - 2 ^ 970 := by
  rw [ofDecimal_eq_roundDecimal, ← cast_wholeCeiling]
  exact isFinite_roundDecimal_iff

/-- **Decimals of one value are rounded alike**, whatever their digits are. -/
theorem ofDecimal_congr {digits' : Nat} {exponent' : Int}
    (h : decimalValue digits exponent = decimalValue digits' exponent')
    (negative : Bool) :
    ofDecimal negative digits exponent
      = ofDecimal negative digits' exponent' := by
  have hpos : ∀ n, 0 < 10 ^ n := fun n => Nat.pow_pos (by decide)
  have hne : ∀ n, ((10 ^ n : Nat) : ℚ) ≠ 0 := fun n =>
    Nat.cast_ne_zero.2 (Nat.ne_of_gt (hpos n))
  rw [decimalValue_eq_div, decimalValue_eq_div,
    div_eq_div_iff (hne _) (hne _)] at h
  rw [ofDecimal_eq_roundDecimal, ofDecimal_eq_roundDecimal]
  exact round_congr (hpos _) (hpos _) (by exact_mod_cast h)

/-- A half with different digits, and a literal of which the exponent alone has
forty digits. -/
example : ofDecimal false 5 (-1) = ofDecimal false 5000 (-4)
    ∧ ofDecimal true 5 (-(10 ^ 39)) = zero true := by
  decide +kernel

end CanCatalog.Binary64
