import CanCatalog.Proofs.Binary64.Nearest

/-!
# The same value in different forms

A number that is to be rounded comes as a quotient, and the same number comes in
many forms: `0.5` and `0.50` are read with different powers of ten, and a whole
number of units may be written over any scale. What it is rounded to should not
depend on the form, and it does not, since a factor that is common to both parts
of a quotient is never seen. In particular a double is what its own value is
rounded to, over whatever scale the value is written.

At both ends there is nothing left to be told apart. What is less than half of a
unit is zero, and what is not rounded to a finite number is infinite.
-/

namespace CanCatalog

/-- **A common factor does not change the nearest integer.** -/
theorem nearestEven_mul_mul {k : Nat} (hk : 0 < k) (a d : Nat) :
    nearestEven (a * k) (d * k) = nearestEven a d := by
  unfold nearestEven
  rw [Nat.mul_div_mul_right _ _ hk, Nat.mul_mod_mul_right]
  simp only [← Nat.mul_assoc, Nat.mul_lt_mul_right hk]

namespace Binary64

variable {negative : Bool} {num den num' den' : Nat}

/-- A common factor does not change the nearest code. -/
theorem codeNearest_mul_mul {k : Nat} (hk : 0 < k) (a d : Nat) :
    codeNearest (a * k) (d * k) = codeNearest a d := by
  have hunit : unitExponent (a * k) (d * k) = unitExponent a d := by
    unfold unitExponent
    rw [Nat.mul_div_mul_right _ _ hk]
  have hscale : ∀ p, (d * k) <<< p = d <<< p * k := by
    intro p
    rw [Nat.shiftLeft_eq, Nat.shiftLeft_eq, Nat.mul_right_comm]
  unfold codeNearest
  dsimp only
  rw [hunit, hscale, nearestEven_mul_mul hk]

/-- What a quotient is rounded to has a sign and a code. -/
theorem round_eq_iff {x : Binary64} :
    round negative num den = x
      ↔ negative = x.negative ∧ codeNearest (num * one) den = x.code := by
  cases x
  exact Binary64.mk.injEq .. ▸ Iff.rfl

/-- **Quotients of one value are rounded alike.** -/
theorem round_congr (hden : 0 < den) (hden' : 0 < den')
    (h : num * den' = num' * den) :
    round negative num den = round negative num' den' := by
  refine round_eq_iff.2 ⟨rfl, ?_⟩
  show codeNearest (num * one) den = codeNearest (num' * one) den'
  rw [← codeNearest_mul_mul hden', ← codeNearest_mul_mul hden (num' * one),
    Nat.mul_right_comm num, Nat.mul_right_comm num', h, Nat.mul_comm den]

/-- **A double is nearest to its own value**, over any scale. -/
theorem round_magnitude {x : Binary64} (hx : x.isNaN = false)
    (hden : 0 < den) (h : num * one = x.magnitude * den) :
    round x.negative num den = x := by
  refine round_eq_iff.2 ⟨rfl, ?_⟩
  rw [h, ← Nat.one_mul den, ← Nat.mul_assoc, Nat.mul_one,
    codeNearest_mul_mul hden]
  exact codeNearest_codeMagnitude (Nat.not_lt.1 (of_decide_eq_false hx))

/-! ## The ends -/

/-- **What is less than half of a unit is zero.** -/
theorem round_of_small (h : 2 * (num * one) < den) :
    round negative num den = zero negative := by
  have hquotient : num * one / den = 0 := Nat.div_eq_of_lt (by omega)
  have hunit : unitExponent (num * one) den = 0 := by
    unfold unitExponent
    rw [hquotient]
    decide
  have hnearest : nearestEven (num * one) den = 0 := by
    unfold nearestEven
    dsimp only
    rw [Nat.mod_eq_of_lt (show num * one < den by omega), if_pos h, hquotient]
  refine round_eq_iff.2 ⟨rfl, ?_⟩
  unfold codeNearest
  dsimp only
  rw [hunit, Nat.shiftLeft_zero, hnearest]
  exact Nat.zero_min _

/-- What is not rounded to a finite number is rounded to infinity. -/
theorem round_of_not_isFinite (h : ¬ (round negative num den).isFinite = true) :
    round negative num den = infinity negative := by
  refine round_eq_iff.2 ⟨rfl, Nat.le_antisymm (Nat.min_le_right _ _) ?_⟩
  exact Nat.not_lt.1 (mt decide_eq_true h)

end Binary64

end CanCatalog
