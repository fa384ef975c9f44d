import CanCatalog.Binary64.Rounding

/-!
# Rounding keeps the order

A larger quotient is never rounded to a smaller double. Where the two have the
same unit in the last place, this is only a question of the nearest integer.
Where they have not, the significands cannot be compared at all, since a larger
unit may come with a smaller significand; but then the exponents decide. A
significand has 53 bits, and unless the unit is the smallest one it has no
fewer, so that one step of the exponent outweighs whatever the significands
are.

The same comparison of exponents says where doubles end. A quotient becomes
infinite from `2^1024 - 2^970` on, half-way between the largest double and the
next power of two: at the exponent of the largest doubles it is the nearest
integer that decides, and at all others the exponent does. The half itself goes
to the power of two, whose significand is even.
-/

namespace CanCatalog

/-! ## The nearest integer -/

/-- **Rounding goes down or up**, and by one at the most. It goes down below the
half and up above it; at the half it goes to the even integer. -/
theorem nearestEven_cases (a d : Nat) :
    nearestEven a d = a / d
        ∧ (2 * (a % d) < d ∨ 2 * (a % d) = d ∧ a / d % 2 = 0)
      ∨ nearestEven a d = a / d + 1
        ∧ (d < 2 * (a % d) ∨ 2 * (a % d) = d ∧ a / d % 2 ≠ 0) := by
  unfold nearestEven
  dsimp only
  split
  · next hlow => exact .inl ⟨rfl, .inl hlow⟩
  · next hlow =>
    split
    · next hhigh => exact .inr ⟨rfl, .inl hhigh⟩
    · next hhigh =>
      have hhalf : 2 * (a % d) = d :=
        Nat.le_antisymm (Nat.not_lt.1 hhigh) (Nat.not_lt.1 hlow)
      split
      · next heven => exact .inl ⟨rfl, .inr ⟨hhalf, heven⟩⟩
      · next hodd => exact .inr ⟨rfl, .inr ⟨hhalf, hodd⟩⟩

theorem div_le_nearestEven (a d : Nat) : a / d ≤ nearestEven a d := by
  rcases nearestEven_cases a d with ⟨h, -⟩ | ⟨h, -⟩ <;> omega

theorem nearestEven_le (a d : Nat) : nearestEven a d ≤ a / d + 1 := by
  rcases nearestEven_cases a d with ⟨h, -⟩ | ⟨h, -⟩ <;> omega

/-- **The nearest integer keeps the order.** Between different integer parts
there is room for rounding, and within one of them the remainder decides. -/
theorem nearestEven_mono {a b : Nat} (h : a ≤ b) (d : Nat) :
    nearestEven a d ≤ nearestEven b d := by
  rcases Nat.lt_or_eq_of_le (Nat.div_le_div_right (c := d) h) with hlt | heq
  · exact Nat.le_trans (nearestEven_le a d)
      (Nat.le_trans hlt (div_le_nearestEven b d))
  · have hmod : a % d ≤ b % d := by
      have ha := Nat.div_add_mod a d
      have hb := Nat.div_add_mod b d
      rw [heq] at ha
      omega
    rcases nearestEven_cases a d with ⟨ha, -⟩ | ⟨ha, hup⟩
    · rw [ha, heq]
      exact div_le_nearestEven b d
    · -- if the smaller one goes up, so does the larger one
      rcases nearestEven_cases b d with ⟨-, hdown⟩ | ⟨hb, -⟩
      · rw [heq] at hup
        omega
      · exact Nat.le_of_eq (by rw [ha, hb, heq])

/-- **When the nearest integer is below an even one**: when the quotient is below
the half before it. At the half it is the even one that is nearest. -/
theorem nearestEven_lt_iff {a d m : Nat} (hd : 0 < d) (hm : m % 2 = 0) :
    nearestEven a d < m ↔ 2 * a + d < 2 * (d * m) := by
  have ha := Nat.div_add_mod a d
  have hr := Nat.mod_lt a hd
  rcases Nat.lt_trichotomy (a / d + 1) m with hbelow | hnext | habove
  · have hup := nearestEven_le a d
    have hroom := Nat.mul_le_mul_left d (Nat.succ_le_of_lt hbelow)
    simp only [Nat.succ_eq_add_one, Nat.mul_add, Nat.mul_one] at hroom
    exact iff_of_true (by omega) (by omega)
  · -- the integer before an even one is odd, so a half goes up
    rw [← hnext, Nat.mul_add, Nat.mul_one]
    rcases nearestEven_cases a d with ⟨h, hdown⟩ | ⟨h, hup⟩
    · exact iff_of_true (by omega) (by omega)
    · exact iff_of_false (by omega) (by omega)
  · have hdown := div_le_nearestEven a d
    have hroom := Nat.mul_le_mul_left d (Nat.le_of_lt_succ habove)
    exact iff_of_false (by omega) (by omega)

namespace Binary64

/-! ## The significand -/

/-- A larger quotient has a unit that is at least as large. -/
theorem unitExponent_mono {a b : Nat} (h : a ≤ b) (d : Nat) :
    unitExponent a d ≤ unitExponent b d := by
  have hdiv : a / d ≤ b / d := Nat.div_le_div_right h
  have hlog : Nat.log2 (a / d) ≤ Nat.log2 (b / d) := by
    rcases Nat.eq_zero_or_pos (a / d) with hzero | hpos
    · rw [hzero]
      exact Nat.zero_le _
    · have ha : a / d ≠ 0 := Nat.ne_of_gt hpos
      have hb : b / d ≠ 0 := Nat.ne_of_gt (Nat.lt_of_lt_of_le hpos hdiv)
      exact (Nat.le_log2 hb).2
        (Nat.le_trans (Nat.log2_self_le ha) hdiv)
  exact Nat.sub_le_sub_right hlog 52

/-- A quotient in units is the integer part of it, shifted. -/
theorem div_shiftLeft (a d p : Nat) : a / (d <<< p) = a / d / Nat.pow 2 p := by
  rw [Nat.shiftLeft_eq, Nat.div_div_eq_div_mul]
  rfl

/-- A quotient has at most 53 bits above those that its unit cuts off. -/
theorem div_lt_two_pow (a d : Nat) :
    a / d < Nat.pow 2 (53 + unitExponent a d) := by
  have hlog : (a / d).log2 + 1 ≤ 53 + unitExponent a d := by
    unfold unitExponent
    omega
  exact Nat.lt_of_lt_of_le Nat.lt_log2_self
    (Nat.pow_le_pow_right (by decide) hlog)

/-- A quotient has no fewer bits unless the unit is the smallest one. -/
theorem two_pow_le_div {a d : Nat} (h : 0 < unitExponent a d) :
    Nat.pow 2 (52 + unitExponent a d) ≤ a / d := by
  have hlog : 52 + unitExponent a d = (a / d).log2 := by
    unfold unitExponent at h ⊢
    omega
  have hne : a / d ≠ 0 := by
    intro hzero
    rw [hzero] at hlog
    have hzero' : Nat.log2 0 = 0 := by decide
    omega
  rw [hlog]
  exact Nat.log2_self_le hne

/-- **A significand has at most 53 bits**, or it is `2^53`. -/
theorem significand_le (a d : Nat) :
    nearestEven a (d <<< unitExponent a d) ≤ 0x20000000000000 := by
  refine Nat.le_trans (nearestEven_le _ _) ?_
  rw [div_shiftLeft]
  refine Nat.succ_le_of_lt ((Nat.div_lt_iff_lt_mul (Nat.two_pow_pos _)).2 ?_)
  calc a / d
      < Nat.pow 2 (53 + unitExponent a d) := div_lt_two_pow a d
    _ = 0x20000000000000 * Nat.pow 2 (unitExponent a d) :=
        Nat.pow_add 2 53 (unitExponent a d)

/-- **A significand has no fewer bits** unless the unit is the smallest one. -/
theorem le_significand {a d : Nat} (h : 0 < unitExponent a d) :
    0x10000000000000 ≤ nearestEven a (d <<< unitExponent a d) := by
  refine Nat.le_trans ?_ (div_le_nearestEven _ _)
  rw [div_shiftLeft]
  refine (Nat.le_div_iff_mul_le (Nat.two_pow_pos _)).2 ?_
  calc 0x10000000000000 * Nat.pow 2 (unitExponent a d)
      = Nat.pow 2 (52 + unitExponent a d) :=
        (Nat.pow_add 2 52 (unitExponent a d)).symm
    _ ≤ a / d := two_pow_le_div h

/-! ## The code -/

/-- **Rounding keeps the order.** -/
theorem codeNearest_mono {a b : Nat} (h : a ≤ b) (d : Nat) :
    codeNearest a d ≤ codeNearest b d := by
  have hcode : unitExponent a d * 0x10000000000000
        + nearestEven a (d <<< unitExponent a d)
      ≤ unitExponent b d * 0x10000000000000
        + nearestEven b (d <<< unitExponent b d) := by
    rcases Nat.lt_or_eq_of_le (unitExponent_mono h d) with hlt | heq
    · have ha := significand_le a d
      have hb := le_significand (Nat.lt_of_le_of_lt (Nat.zero_le _) hlt)
      omega
    · rw [heq]
      exact Nat.add_le_add_left (nearestEven_mono h _) _
  unfold codeNearest
  dsimp only
  omega

/-- A finite number is a number. -/
theorem isNaN_of_isFinite {x : Binary64} (h : x.isFinite = true) :
    x.isNaN = false :=
  decide_eq_false (Nat.not_lt.2 (Nat.le_of_lt (of_decide_eq_true h)))

/-- **Rounding never gives a code that is no number.** -/
@[simp] theorem isNaN_round (negative : Bool) (num den : Nat) :
    (round negative num den).isNaN = false :=
  decide_eq_false (Nat.not_lt.2 (Nat.min_le_right _ _))

/-! ## The end of the doubles -/

/-- **The least whole number that is rounded to infinity**, which is
`2^1024 - 2^970`: a one in each of 54 bits, above 970 zeros. -/
def wholeCeiling : Nat := 0x3FFFFFFFFFFFFF <<< 970

/-- **Where the next power of two begins**, for codes: a quotient whose exponent is
too small by one can still be rounded up to it, from half of a unit below. -/
theorem code_lt_iff {a d : Nat} (hd : 0 < d) (k : Nat) :
    unitExponent a d * 0x10000000000000
        + nearestEven a (d <<< unitExponent a d) < (k + 3) * 0x10000000000000
      ↔ a < 0x3FFFFFFFFFFFFF * (d <<< k) := by
  have hle := significand_le a d
  rcases Nat.lt_trichotomy (unitExponent a d) (k + 1) with hlow | heq | hhigh
  · refine iff_of_true (by omega) ?_
    have hbits := Nat.lt_of_lt_of_le (div_lt_two_pow a d)
      (Nat.pow_le_pow_right (by decide)
        (Nat.add_le_add_left (Nat.le_of_lt_succ hlow) 53))
    calc a
        < 2 ^ (53 + k) * d := (Nat.div_lt_iff_lt_mul hd).1 hbits
      _ = 0x20000000000000 * (d <<< k) := by
          rw [Nat.pow_add, Nat.shiftLeft_eq, Nat.mul_assoc,
            Nat.mul_comm (2 ^ k) d]
      _ ≤ 0x3FFFFFFFFFFFFF * (d <<< k) :=
          Nat.mul_le_mul_right _ (by decide)
  · have hunit : d <<< (k + 1) = 2 * (d <<< k) := Nat.shiftLeft_succ d k
    have hpos : 0 < d <<< (k + 1) := by
      rw [Nat.shiftLeft_eq]
      exact Nat.mul_pos hd (Nat.two_pow_pos _)
    have heven := nearestEven_lt_iff (a := a) hpos
      (show 0x20000000000000 % 2 = 0 by decide)
    rw [hunit] at heven
    rw [heq, hunit]
    omega
  · have hge := le_significand (Nat.lt_of_le_of_lt (Nat.zero_le _) hhigh)
    refine iff_of_false (by omega) (Nat.not_lt.2 ?_)
    have hbits := Nat.le_trans
      (Nat.pow_le_pow_right (by decide) (Nat.add_le_add_left hhigh 52))
      (two_pow_le_div (Nat.lt_of_le_of_lt (Nat.zero_le _) hhigh))
    calc 0x3FFFFFFFFFFFFF * (d <<< k)
        ≤ 0x40000000000000 * (d <<< k) := Nat.mul_le_mul_right _ (by decide)
      _ = 2 ^ (52 + (k + 2)) * d := by
          rw [Nat.add_left_comm, Nat.pow_add, Nat.shiftLeft_eq, Nat.mul_comm d,
            Nat.mul_left_comm, Nat.mul_assoc]
      _ ≤ a := (Nat.le_div_iff_mul_le hd).1 hbits

/-- **Where doubles end**, in units of `2^(-1074)`. -/
theorem codeNearest_lt_infinityCode_iff {a d : Nat} (hd : 0 < d) :
    codeNearest a d < infinityCode ↔ a < 0x3FFFFFFFFFFFFF * (d <<< 2044) := by
  rw [← code_lt_iff hd]
  unfold codeNearest infinityCode
  dsimp only
  omega

/-- A shift is shared out among the factors of a product. -/
theorem mul_shiftLeft_add (m d i j : Nat) :
    m * (d <<< (i + j)) = (m <<< i) * d * (1 <<< j) := by
  simp only [Nat.shiftLeft_eq, Nat.pow_add, Nat.one_mul]
  ac_rfl

/-- A one is a number of units. -/
theorem one_pos : 0 < one := by decide +kernel

/-- **Where doubles end**: a quotient is rounded to a finite double as long as it
is below `2^1024 - 2^970`. -/
theorem isFinite_round_iff {negative : Bool} {num den : Nat} (hden : 0 < den) :
    (round negative num den).isFinite = true ↔ num < wholeCeiling * den := by
  unfold isFinite
  rw [decide_eq_true_eq]
  refine (codeNearest_lt_infinityCode_iff hden).trans ?_
  rw [mul_shiftLeft_add 0x3FFFFFFFFFFFFF den 970 1074]
  exact Nat.mul_lt_mul_right one_pos

/-- **Where whole numbers become infinite.** -/
theorem isFinite_round_whole {negative : Bool} {n : Nat} :
    (round negative n 1).isFinite = true ↔ n < wholeCeiling := by
  rw [isFinite_round_iff Nat.one_pos, Nat.mul_one]

/-- A decimal without an exponent is a whole number. -/
theorem ofDecimal_zero (negative : Bool) (n : Nat) :
    ofDecimal negative n 0 = round negative n 1 := by
  have hclamp : clampExponent n 0 = 0 := by
    simp only [clampExponent, decimalFloor, decimalCeiling]
    omega
  unfold ofDecimal
  dsimp only
  rw [hclamp]
  exact congrArg (fun m => round negative m 1) (Nat.mul_one n)

end Binary64

end CanCatalog
