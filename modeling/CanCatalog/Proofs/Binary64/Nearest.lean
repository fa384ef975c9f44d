import CanCatalog.Proofs.Binary64.Order
import Mathlib.Algebra.Group.Nat.Defs
import Mathlib.Order.Monotone.Basic

/-!
# Integers among the doubles

An integer is compared with a double after it has been rounded to one, and the
question is what that comparison still says about the integer. The answer rests
on two facts. Rounding keeps the order, and a double is not changed by it
(`scaled_nearest`). So an integer that is below a double is not rounded to one
above it: rounding can make the two equal, and it cannot put them in the wrong
order.

Both facts are about codes first. The code of a double is an exponent above a
significand, and its magnitude is the significand, shifted. This is true with a
significand of `2^53` as well, which is that of the next exponent already
(`codeMagnitude_add`); and so the next larger code has a larger magnitude
whether or not it has a larger exponent.

Up to `2^53` all integers are doubles, and rounding changes none of them.
-/

namespace CanCatalog

/-- **A quotient without a remainder is its own nearest integer.** -/
theorem nearestEven_mul {d : Nat} (hd : 0 < d) (q : Nat) :
    nearestEven (q * d) d = q := by
  unfold nearestEven
  rw [Nat.mul_mod_left, Nat.mul_div_cancel q hd]
  exact if_pos hd

namespace Binary64

/-! ## Codes and magnitudes -/

/-- **The magnitude of a code**, in units of `2^(-1074)`. -/
def codeMagnitude (c : Nat) : Nat :=
  if c / 0x10000000000000 = 0 then c % 0x10000000000000
  else (0x10000000000000 + c % 0x10000000000000)
    <<< (c / 0x10000000000000 - 1)

/-- A double has the magnitude of its code. -/
theorem magnitude_eq (x : Binary64) : x.magnitude = codeMagnitude x.code := rfl

/-- **A code is an exponent above a significand**, which has 53 bits unless the
exponent is the least one. -/
theorem exists_significand (c : Nat) :
    ∃ p s, c = p * 0x10000000000000 + s ∧ s < 0x20000000000000
      ∧ (p = 0 ∨ 0x10000000000000 ≤ s) := by
  rcases Nat.lt_or_ge c 0x20000000000000 with hlt | hge
  · exact ⟨0, c, by omega, hlt, .inl rfl⟩
  · exact ⟨c / 0x10000000000000 - 1,
      0x10000000000000 + c % 0x10000000000000, by omega, by omega,
      .inr (by omega)⟩

/-- **The magnitude is the significand, shifted**, and also where the significand
has been carried into the next exponent. -/
theorem codeMagnitude_add {p s : Nat} (hs : s ≤ 0x20000000000000)
    (hp : p = 0 ∨ 0x10000000000000 ≤ s) :
    codeMagnitude (p * 0x10000000000000 + s) = s <<< p := by
  unfold codeMagnitude
  rcases Nat.lt_or_ge s 0x10000000000000 with hlow | hge
  · obtain rfl : p = 0 := hp.resolve_right (Nat.not_le.2 hlow)
    rw [if_pos (by omega), Nat.shiftLeft_zero]
    omega
  · rcases Nat.lt_or_eq_of_le hs with hlt | rfl
    · have hfield : (p * 0x10000000000000 + s) / 0x10000000000000 = p + 1 := by
        omega
      have hrest : (p * 0x10000000000000 + s) % 0x10000000000000
          = s - 0x10000000000000 := by omega
      rw [hfield, hrest, if_neg (Nat.succ_ne_zero p), Nat.add_sub_cancel' hge,
        Nat.add_sub_cancel]
    · have hfield : (p * 0x10000000000000 + 0x20000000000000)
          / 0x10000000000000 = p + 2 := by omega
      have hrest : (p * 0x10000000000000 + 0x20000000000000)
          % 0x10000000000000 = 0 := by omega
      rw [hfield, hrest, if_neg (Nat.succ_ne_zero _)]
      exact (Nat.shiftLeft_succ_inside 0x10000000000000 p).symm

/-- **Larger codes have larger magnitudes.** -/
theorem codeMagnitude_strictMono : StrictMono codeMagnitude := by
  refine strictMono_nat_of_lt_succ fun c => ?_
  obtain ⟨p, s, rfl, hs, hp⟩ := exists_significand c
  rw [Nat.add_assoc, codeMagnitude_add (Nat.le_of_lt hs) hp,
    codeMagnitude_add hs (hp.imp_right Nat.le_succ_of_le),
    Nat.shiftLeft_eq, Nat.shiftLeft_eq]
  exact Nat.mul_lt_mul_of_pos_right (Nat.lt_succ_self s) (Nat.two_pow_pos p)

/-- **The magnitude of a double is rounded to its code.** -/
theorem codeNearest_codeMagnitude {c : Nat} (hc : c ≤ infinityCode) :
    codeNearest (codeMagnitude c) 1 = c := by
  obtain ⟨p, s, rfl, hs, hp⟩ := exists_significand c
  rw [codeMagnitude_add (Nat.le_of_lt hs) hp]
  have hunit : unitExponent (s <<< p) 1 = p := by
    unfold unitExponent
    rw [Nat.div_one, Nat.shiftLeft_eq]
    rcases hp with rfl | hle
    · rw [Nat.pow_zero, Nat.mul_one]
      rcases Nat.eq_zero_or_pos s with rfl | hpos
      · decide
      · have hlog := (Nat.log2_lt (Nat.ne_of_gt hpos)).2
          (show s < 2 ^ 53 from hs)
        omega
    · have hlow : 2 ^ (52 + p) ≤ s * 2 ^ p := by
        rw [Nat.pow_add]
        exact Nat.mul_le_mul_right _ hle
      have hhigh : s * 2 ^ p < 2 ^ (52 + p + 1) := by
        rw [Nat.add_right_comm, Nat.pow_add]
        exact Nat.mul_lt_mul_of_pos_right hs (Nat.two_pow_pos p)
      have hne : s * 2 ^ p ≠ 0 :=
        Nat.ne_of_gt (Nat.lt_of_lt_of_le (Nat.two_pow_pos _) hlow)
      rw [(Nat.log2_eq_iff hne).2 ⟨hlow, hhigh⟩]
      omega
  have hnearest : nearestEven (s <<< p) (1 <<< p) = s := by
    rw [Nat.shiftLeft_eq, Nat.shiftLeft_eq, Nat.one_mul]
    exact nearestEven_mul (Nat.two_pow_pos p) s
  unfold codeNearest
  dsimp only
  rw [hunit, hnearest, Nat.min_eq_left hc]

/-- **Every number of 53 bits, shifted, is the magnitude of a code.** -/
theorem exists_codeMagnitude_eq {m : Nat} (hm : m ≤ 0x20000000000000)
    (p : Nat) :
    ∃ c ≤ p * 0x10000000000000 + m, codeMagnitude c = m <<< p := by
  induction p generalizing m with
  | zero =>
    exact ⟨0 * 0x10000000000000 + m, Nat.le_refl _,
      codeMagnitude_add hm (.inl rfl)⟩
  | succ p ih =>
    rcases Nat.lt_or_ge m 0x10000000000000 with hlow | hhigh
    · -- a shorter significand has a smaller exponent to spare
      have hbound : p * 0x10000000000000 + 2 * m
          ≤ (p + 1) * 0x10000000000000 + m := by omega
      obtain ⟨c, hle, hc⟩ := ih (m := 2 * m) (by omega)
      exact ⟨c, Nat.le_trans hle hbound,
        hc.trans (Nat.shiftLeft_succ_inside m p).symm⟩
    · exact ⟨(p + 1) * 0x10000000000000 + m, Nat.le_refl _,
        codeMagnitude_add hm (.inr hhigh)⟩

/-! ## Rounding with a sign -/

/-- The magnitude is that of the value. -/
theorem natAbs_scaled (x : Binary64) : x.scaled.natAbs = x.magnitude := by
  unfold scaled
  split <;> omega

/-- **The double nearest to a number of units**. -/
def nearest (units : Int) : Binary64 where
  negative := decide (units < 0)
  code := codeNearest units.natAbs 1
  code_lt := codeNearest_lt _ _

/-- The double nearest to an integer is the one nearest to its units. -/
theorem ofInt_eq_nearest (v : Int) : ofInt v = nearest (v * one) := by
  have hone : (0 : Int) < one := Int.natCast_pos.2 one_pos
  have hneg : decide (v < 0) = decide (v * one < 0) := by
    refine decide_eq_decide.2 ⟨fun h => Int.mul_neg_of_neg_of_pos h hone, fun h => ?_⟩
    exact Int.not_le.1 fun hle =>
      Int.not_lt.2 (Int.mul_nonneg hle (Int.le_of_lt hone)) h
  simp only [ofInt, nearest, round, hneg, Int.natAbs_mul, Int.natAbs_natCast]

/-- The units of the nearest double. -/
theorem scaled_nearest_eq (units : Int) :
    (nearest units).scaled
      = if units < 0 then -(codeMagnitude (codeNearest units.natAbs 1) : Int)
        else codeMagnitude (codeNearest units.natAbs 1) := by
  simp only [scaled, magnitude_eq, nearest, decide_eq_true_eq]

/-- **Rounding keeps the order of all numbers**, whatever their signs. -/
theorem scaled_nearest_mono {j k : Int} (h : j ≤ k) :
    (nearest j).scaled ≤ (nearest k).scaled := by
  have hmono : ∀ {a b : Nat}, a ≤ b →
      codeMagnitude (codeNearest a 1) ≤ codeMagnitude (codeNearest b 1) :=
    fun hab => codeMagnitude_strictMono.monotone (codeNearest_mono hab 1)
  rw [scaled_nearest_eq, scaled_nearest_eq]
  rcases Int.lt_or_le j 0 with hj | hj
  · rw [if_pos hj]
    rcases Int.lt_or_le k 0 with hk | hk
    · rw [if_pos hk]
      have := hmono (show k.natAbs ≤ j.natAbs by omega)
      omega
    · rw [if_neg (Int.not_lt.2 hk)]
      omega
  · rw [if_neg (Int.not_lt.2 hj), if_neg (by omega)]
    have := hmono (show j.natAbs ≤ k.natAbs by omega)
    omega

/-- **Rounding does not change a double.** -/
theorem scaled_nearest {x : Binary64} (hx : x.isNaN = false) :
    (nearest x.scaled).scaled = x.scaled := by
  have hcode : codeNearest x.magnitude 1 = x.code :=
    codeNearest_codeMagnitude (Nat.not_lt.1 (of_decide_eq_false hx))
  rw [scaled_nearest_eq, natAbs_scaled, hcode, ← magnitude_eq]
  unfold scaled
  split <;> split <;> omega

/-! ## Integers -/

/-- Rounding keeps the order of integers. -/
theorem scaled_ofInt_mono {u v : Int} (h : u ≤ v) :
    (ofInt u).scaled ≤ (ofInt v).scaled := by
  rw [ofInt_eq_nearest, ofInt_eq_nearest]
  exact scaled_nearest_mono (Int.mul_le_mul_of_nonneg_right h (Int.natCast_nonneg _))

/-- **An integer that is not above a double is not rounded above it.** -/
theorem scaled_ofInt_le {x : Binary64} (hx : x.isNaN = false) {v : Int}
    (h : v * one ≤ x.scaled) : (ofInt v).scaled ≤ x.scaled := by
  rw [ofInt_eq_nearest, ← scaled_nearest hx]
  exact scaled_nearest_mono (scaled_nearest hx ▸ h)

/-- **An integer that is not below a double is not rounded below it.** -/
theorem le_scaled_ofInt {x : Binary64} (hx : x.isNaN = false) {v : Int}
    (h : x.scaled ≤ v * one) : x.scaled ≤ (ofInt v).scaled := by
  rw [ofInt_eq_nearest, ← scaled_nearest hx]
  exact scaled_nearest_mono (scaled_nearest hx ▸ h)

@[simp] theorem isNaN_ofInt (v : Int) : (ofInt v).isNaN = false :=
  isNaN_round _ _ _

/-- Shifting is multiplying by a shifted one. -/
theorem mul_one_shiftLeft (n k : Nat) : n * 1 <<< k = n <<< k := by
  rw [Nat.shiftLeft_eq, Nat.shiftLeft_eq, Nat.one_mul]

/-- **Integers up to `2^53` are doubles.** -/
theorem scaled_ofInt_of_natAbs_le {v : Int} (h : v.natAbs ≤ 2 ^ 53) :
    (ofInt v).scaled = v * one := by
  obtain ⟨c, hle, hc⟩ := exists_codeMagnitude_eq h 1074
  have hinf : c ≤ infinityCode := by
    unfold infinityCode
    omega
  have habs : (v * one).natAbs = codeMagnitude c := by
    rw [Int.natAbs_mul, Int.natAbs_natCast, hc]
    exact mul_one_shiftLeft v.natAbs 1074
  rw [ofInt_eq_nearest, scaled_nearest_eq, habs,
    codeNearest_codeMagnitude hinf, ← habs]
  split <;> omega

/-! ## Doubles of one value -/

/-- Zero is the only magnitude without a sign. -/
theorem negative_iff {x : Binary64} (hx : x.code ≠ 0) :
    x.negative = true ↔ x.scaled < 0 := by
  have hpos : 0 < x.magnitude :=
    codeMagnitude_strictMono (Nat.pos_of_ne_zero hx)
  unfold scaled
  split
  · next hneg => exact iff_of_true hneg (by omega)
  · next hneg => exact iff_of_false hneg (by omega)

/-- **Doubles of one value are the same**, unless both are zero. -/
theorem scaled_eq_iff {x y : Binary64} :
    x.scaled = y.scaled ↔ x = y ∨ x.code = 0 ∧ y.code = 0 := by
  constructor
  · intro h
    have hcode : x.code = y.code := by
      refine codeMagnitude_strictMono.injective ?_
      rw [← magnitude_eq, ← magnitude_eq, ← natAbs_scaled, h, natAbs_scaled]
    by_cases hzero : x.code = 0
    · exact .inr ⟨hzero, hcode ▸ hzero⟩
    · refine .inl ?_
      have hsign : x.negative = y.negative := by
        rw [Bool.eq_iff_iff, negative_iff hzero, negative_iff (hcode ▸ hzero), h]
      cases x
      cases y
      simp only at hcode hsign
      subst hcode hsign
      rfl
  · rintro (rfl | ⟨hx, hy⟩)
    · rfl
    · have hzero : ∀ {z : Binary64}, z.code = 0 → z.scaled = 0 := by
        intro z hz
        rw [← Int.natAbs_eq_zero, natAbs_scaled, magnitude_eq, hz]
        rfl
      rw [hzero hx, hzero hy]

end Binary64

end CanCatalog
