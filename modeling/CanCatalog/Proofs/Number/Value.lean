import CanCatalog.Proofs.Number.Order
import Mathlib.Algebra.Order.Field.Basic
import Mathlib.Algebra.Order.Ring.Rat
import Mathlib.Order.WithBot

/-!
# The exact values of numbers

What a comparison should answer is a matter of the values that numbers stand
for, before anything is rounded. An integer stands for itself, a finite double
for a rational number whose denominator is a power of two, and the two
infinities for the ends of the line (`Number.value?`). Only a code that is no
number has no value.

A comparison of an integer with a double is one of rounded values, and it may
miss a difference, but it never makes one up. What it misses can be said in one
condition: the double is the one that the integer is rounded to, and then the
two are *blurred* (`Number.Blurred`). In all other cases the order of numbers is
the order of exact values (`above_iff_value_lt`).
-/

namespace CanCatalog

/-- **Rational numbers with two ends.** -/
abbrev ExtendedRat := WithBot (WithTop ℚ)

/-- A rational number among them. -/
def ExtendedRat.ofRat (q : ℚ) : ExtendedRat := WithBot.some (WithTop.some q)

namespace Binary64

/-! ## Values -/

/-- **The number that a finite double is**: its significand times a power of two,
with its sign. -/
def dyadic (x : Binary64) : ℚ :=
  let magnitude : ℚ :=
    if x.exponentField = 0 then (x.fractionField : ℚ) * 2 ^ (-1074 : ℤ)
    else (0x10000000000000 + (x.fractionField : ℚ))
      * 2 ^ ((x.exponentField : ℤ) - 1075)
  if x.negative then -magnitude else magnitude

/-- **The exact value of a double**, if it has one. -/
def value? (x : Binary64) : Option ExtendedRat :=
  if x.isNaN then none
  else if x.isInfinite then some (if x.negative then ⊥ else ⊤)
  else some (.ofRat x.dyadic)

/-- A shift is a power of two, as a factor. -/
theorem cast_shiftLeft (n k : ℕ) : ((n <<< k : ℕ) : ℚ) = n * 2 ^ (k : ℤ) := by
  rw [Nat.shiftLeft_eq, Nat.cast_mul, Nat.cast_pow, Nat.cast_ofNat, zpow_natCast]

/-- A one is a power of two when counted in units. -/
theorem cast_one_eq : (one : ℚ) = 2 ^ (1074 : ℤ) := by
  rw [one, cast_shiftLeft, Nat.cast_one, one_mul, Nat.cast_ofNat]

/-- **A finite double is as many units as its code says.** -/
theorem dyadic_eq (x : Binary64) : x.dyadic = x.scaled / one := by
  have hmagnitude : (x.magnitude : ℚ) / one
      = if x.exponentField = 0 then (x.fractionField : ℚ) * 2 ^ (-1074 : ℤ)
        else (0x10000000000000 + (x.fractionField : ℚ))
          * 2 ^ ((x.exponentField : ℤ) - 1075) := by
    rw [cast_one_eq, div_eq_mul_inv, ← zpow_neg]
    unfold magnitude
    split
    · rfl
    · next hfield =>
      have hexponent : ((x.exponentField - 1 : ℕ) : ℤ) + -1074
          = (x.exponentField : ℤ) - 1075 := by omega
      rw [cast_shiftLeft, mul_assoc, ← zpow_add₀ two_ne_zero, hexponent,
        Nat.cast_add, Nat.cast_ofNat]
  unfold dyadic scaled
  dsimp only
  rw [← hmagnitude]
  split
  · rw [Int.cast_neg, neg_div, Int.cast_natCast]
  · rw [Int.cast_natCast]

/-! ## Units -/

/-- **Where the units of numbers end**: this many are infinite. -/
def edge : Nat := codeMagnitude infinityCode

/-- All integers of a machine word are far from there. -/
theorem mul_one_lt_edge : 0x8000000000000000 * one < edge := by decide +kernel

/-- The value of a number of units. -/
def ofUnits (units : Int) : ExtendedRat :=
  if units ≤ -edge then ⊥
  else if edge ≤ units then ⊤
  else .ofRat (units / one)

/-- What is not at an end has a rational value. -/
theorem ofUnits_eq_ofRat {u : Int} (hu : u.natAbs < edge) :
    ofUnits u = .ofRat (u / one) := by
  unfold ofUnits
  rw [if_neg (by omega), if_neg (by omega)]

/-- **More units have a larger value**, from one end to the other. -/
theorem ofUnits_lt_iff {u w : Int} (hu : u.natAbs ≤ edge)
    (hw : w.natAbs ≤ edge) : ofUnits u < ofUnits w ↔ u < w := by
  have hmono : StrictMonoOn ofUnits (Set.Icc (-edge) edge) := by
    rintro u ⟨hu, -⟩ w ⟨-, hw⟩ hlt
    have hwlow : ¬ w ≤ -edge := by omega
    have huhigh : ¬ (edge : Int) ≤ u := by omega
    unfold ofUnits
    rw [if_neg hwlow, if_neg huhigh]
    split
    · split
      · exact WithBot.bot_lt_coe _
      · exact WithBot.bot_lt_coe _
    · split
      · exact WithBot.coe_lt_coe.2 (WithTop.coe_lt_top _)
      · refine WithBot.coe_lt_coe.2 (WithTop.coe_lt_coe.2 ?_)
        exact div_lt_div_of_pos_right (Int.cast_lt.2 hlt)
          (Nat.cast_pos.2 one_pos)
  exact hmono.lt_iff_lt ⟨by omega, by omega⟩ ⟨by omega, by omega⟩

/-- A number has no more units than infinity. -/
theorem natAbs_scaled_le {x : Binary64} (hx : x.isNaN = false) :
    x.scaled.natAbs ≤ edge := by
  rw [natAbs_scaled, magnitude_eq]
  exact codeMagnitude_strictMono.monotone
    (Nat.not_lt.1 (of_decide_eq_false hx))

/-- **The value of a double is that of its units.** -/
theorem value?_eq {x : Binary64} (hx : x.isNaN = false) :
    x.value? = some (ofUnits x.scaled) := by
  have hedge : 0 < edge := codeMagnitude_strictMono (show 0 < infinityCode by decide)
  have habs := natAbs_scaled x
  rw [magnitude_eq] at habs
  unfold value? isInfinite ofUnits
  rw [hx, if_neg Bool.false_ne_true]
  by_cases hinf : x.code = infinityCode
  · have hunits : x.scaled = if x.negative then -(edge : Int) else edge := by
      unfold scaled
      rw [magnitude_eq, hinf]
      rfl
    rw [if_pos (beq_iff_eq.2 hinf), hunits]
    cases x.negative with
    | true => simp
    | false => simp [hedge.ne']
  · have hfinite : x.scaled.natAbs < edge := by
      rw [habs]
      exact codeMagnitude_strictMono
        (Nat.lt_of_le_of_ne (Nat.not_lt.1 (of_decide_eq_false hx)) hinf)
    rw [if_neg (mt beq_iff_eq.1 hinf), ← ofUnits, ofUnits_eq_ofRat hfinite,
      dyadic_eq]

/-- The values of `-1.5`, of an infinity and of a code that is no number. -/
example : (ofBits 0xBFF8000000000000).value? = some (.ofRat (-3 / 2))
    ∧ (ofBits 0xFFF0000000000000).value? = some ⊥
    ∧ (ofBits 0x7FF8000000000000).value? = none := by
  decide +kernel

/-! ## Rounding and the exact order -/

/-- A double that an integer is rounded to, with a loss, is the rounded integer
also in its sign. -/
theorem eq_ofInt_of_scaled_eq {x : Binary64} {v : Int}
    (h : x.scaled = (ofInt v).scaled) (hne : x.scaled ≠ v * one) :
    x = ofInt v := by
  rcases scaled_eq_iff.1 h with heq | ⟨-, hcode⟩
  · exact heq
  · have hzero : (ofInt v).scaled = 0 := by
      rw [← Int.natAbs_eq_zero, natAbs_scaled, magnitude_eq, hcode]
      rfl
    refine absurd ?_ hne
    rw [h, hzero, eq_zero_of_scaled_ofInt hzero, Int.zero_mul]

/-- **When an integer is above a double after rounding**: when it is before and is
not rounded to this double. -/
theorem scaled_lt_scaled_ofInt_iff {x : Binary64} (hx : x.isNaN = false)
    {v : Int} :
    x.scaled < (ofInt v).scaled ↔ x.scaled < v * one ∧ x ≠ ofInt v := by
  constructor
  · intro h
    refine ⟨Int.not_le.1 fun hle => Int.not_lt.2 (scaled_ofInt_le hx hle) h, ?_⟩
    rintro rfl
    exact Int.lt_irrefl _ h
  · rintro ⟨hlt, hne⟩
    -- rounding does not go beyond the double, so it can only have ended there
    refine lt_of_le_of_ne (le_scaled_ofInt hx (Int.le_of_lt hlt)) fun heq => ?_
    exact hne (eq_ofInt_of_scaled_eq heq (Int.ne_of_lt hlt))

/-- **When an integer is below a double after rounding**: when it is before and is
not rounded to this double. -/
theorem scaled_ofInt_lt_scaled_iff {x : Binary64} (hx : x.isNaN = false)
    {v : Int} :
    (ofInt v).scaled < x.scaled ↔ v * one < x.scaled ∧ x ≠ ofInt v := by
  constructor
  · intro h
    refine ⟨Int.not_le.1 fun hle => Int.not_lt.2 (le_scaled_ofInt hx hle) h, ?_⟩
    rintro rfl
    exact Int.lt_irrefl _ h
  · rintro ⟨hlt, hne⟩
    refine lt_of_le_of_ne (scaled_ofInt_le hx (Int.le_of_lt hlt)) fun heq => ?_
    exact hne (eq_ofInt_of_scaled_eq heq.symm (Int.ne_of_gt hlt))

end Binary64

namespace Number

open Binary64 (ofUnits edge one)

variable {a b : Number} {p q : ExtendedRat}

/-- **The exact value of a number**, if it has one. -/
def value? : Number → Option ExtendedRat
  | integer v => some (.ofRat v.toInt)
  | real x => x.value?

/-- How many units the exact value is. -/
def units : Number → Int
  | integer v => v.toInt * one
  | real x => x.scaled

/-- An integer has fewer units than infinity. -/
theorem natAbs_units_integer_lt (v : Int64) : (integer v).units.natAbs < edge := by
  have hword : v.toInt.natAbs ≤ 0x8000000000000000 := by
    have hlow := v.le_toInt
    have hhigh := v.toInt_lt
    omega
  show (v.toInt * one).natAbs < edge
  rw [Int.natAbs_mul, Int.natAbs_natCast]
  exact Nat.lt_of_le_of_lt (Nat.mul_le_mul_right one hword)
    Binary64.mul_one_lt_edge

/-- A number has no more units than infinity. -/
theorem natAbs_units_le (ha : a.isNaN = false) : a.units.natAbs ≤ edge := by
  cases a with
  | integer v => exact Nat.le_of_lt (natAbs_units_integer_lt v)
  | real x => exact Binary64.natAbs_scaled_le ha

/-- **The value of a number is that of its units.** -/
theorem value?_eq (ha : a.isNaN = false) : a.value? = some (ofUnits a.units) := by
  cases a with
  | integer v =>
    have hone : (one : ℚ) ≠ 0 := Nat.cast_ne_zero.2 (Nat.ne_of_gt Binary64.one_pos)
    rw [Binary64.ofUnits_eq_ofRat (natAbs_units_integer_lt v)]
    show some (ExtendedRat.ofRat v.toInt)
      = some (.ofRat ((v.toInt * one : ℤ) / one))
    rw [Int.cast_mul, Int.cast_natCast, mul_div_cancel_right₀ _ hone]
  | real x => exact Binary64.value?_eq ha

/-- What is no number has no value. -/
theorem isNaN_of_value? (hp : a.value? = some p) : a.isNaN = false := by
  cases a with
  | integer v => rfl
  | real x =>
    refine Bool.eq_false_iff.2 fun hx => ?_
    have hnone : x.value? = none := if_pos hx
    exact absurd (hnone.symm.trans hp) nofun

/-- **The order of exact values is that of units.** -/
theorem value_lt_iff (hp : a.value? = some p) (hq : b.value? = some q) :
    p < q ↔ a.units < b.units := by
  have ha := isNaN_of_value? hp
  have hb := isNaN_of_value? hq
  obtain rfl := Option.some.inj ((value?_eq ha).symm.trans hp)
  obtain rfl := Option.some.inj ((value?_eq hb).symm.trans hq)
  exact Binary64.ofUnits_lt_iff (natAbs_units_le ha) (natAbs_units_le hb)

/-! ## What a comparison misses -/

/-- **A double that an integer is rounded to.** -/
def RoundedTo (a b : Number) : Prop :=
  ∃ v : Int64, a = integer v ∧ b = real (Binary64.ofInt v.toInt)

/-- **Numbers of which one is an integer and the other its rounded value.** -/
def Blurred (a b : Number) : Prop := a.RoundedTo b ∨ b.RoundedTo a

theorem blurred_comm : a.Blurred b ↔ b.Blurred a := or_comm

theorem not_blurred_integer (u v : Int64) :
    ¬ (integer u).Blurred (integer v) := by
  rintro (⟨_, -, h⟩ | ⟨_, -, h⟩)
  · exact absurd h nofun
  · exact absurd h nofun

theorem not_blurred_real (x y : Binary64) : ¬ (real x).Blurred (real y) := by
  rintro (⟨_, h, -⟩ | ⟨_, h, -⟩)
  · exact absurd h nofun
  · exact absurd h nofun

/-- An integer is blurred with one double only. -/
theorem blurred_integer_real_iff {v : Int64} {x : Binary64} :
    (integer v).Blurred (real x) ↔ x = Binary64.ofInt v.toInt := by
  constructor
  · rintro (⟨_, hv, hx⟩ | ⟨_, h, -⟩)
    · obtain rfl := integer.inj hv
      exact real.inj hx
    · exact absurd h nofun
  · rintro rfl
    exact .inl ⟨v, rfl, rfl⟩

/-- **Blurred numbers of different values are beyond `2^53`.** -/
theorem natAbs_lt_of_value?_ne {v : Int64}
    (h : (integer v).value? ≠ (real (Binary64.ofInt v.toInt)).value?) :
    2 ^ 53 < v.toInt.natAbs := by
  refine Nat.not_le.1 fun hsmall => h ?_
  have hunits : (real (Binary64.ofInt v.toInt)).units = (integer v).units :=
    Binary64.scaled_ofInt_of_natAbs_le hsmall
  have hnumber : (real (Binary64.ofInt v.toInt)).isNaN = false :=
    Binary64.isNaN_ofInt v.toInt
  rw [value?_eq rfl, value?_eq hnumber, hunits]

theorem Blurred.exists_natAbs_lt (h : a.Blurred b) (hne : a.value? ≠ b.value?) :
    ∃ v : Int64, (a = integer v ∨ b = integer v)
      ∧ 2 ^ 53 < v.toInt.natAbs := by
  rcases h with ⟨v, rfl, rfl⟩ | ⟨v, rfl, rfl⟩
  · exact ⟨v, .inl rfl, natAbs_lt_of_value?_ne hne⟩
  · exact ⟨v, .inr rfl, natAbs_lt_of_value?_ne hne.symm⟩

/-- Integers compare as they are. -/
theorem below_integer_iff {u v : Int64} :
    (integer u).below (integer v) = true ↔ u.toInt < v.toInt := by
  unfold below compare?
  rw [beq_iff_eq, Option.some_inj, Int.compare_eq_lt]

/-- Unless they are both integers, numbers compare as they are after rounding. -/
theorem below_iff_rounded_lt (ha : a.isNaN = false) (hb : b.isNaN = false)
    (hkinds : ∀ u v, a = integer u → b ≠ integer v) :
    a.below b = true ↔ a.rounded < b.rounded := by
  rw [below_iff]
  constructor
  · rintro ⟨-, h | ⟨u, v, hu, hv, -⟩⟩
    · exact h
    · exact absurd hv (hkinds u v hu)
  · exact fun h => ⟨⟨ha, hb⟩, .inl h⟩

/-- **What a comparison answers**: a number is below another if it has fewer
units, unless the two are blurred. -/
theorem below_iff_units_lt (ha : a.isNaN = false) (hb : b.isNaN = false) :
    a.below b = true ↔ a.units < b.units ∧ ¬ a.Blurred b := by
  cases a with
  | integer u =>
    cases b with
    | integer v =>
      have hone : (0 : Int) < one := Int.natCast_pos.2 Binary64.one_pos
      rw [below_integer_iff, and_iff_left (not_blurred_integer u v)]
      exact (Int.mul_lt_mul_right hone).symm
    | real y =>
      rw [below_iff_rounded_lt ha hb fun _ _ _ => nofun,
        blurred_integer_real_iff]
      exact Binary64.scaled_ofInt_lt_scaled_iff hb
  | real x =>
    cases b with
    | integer v =>
      rw [below_iff_rounded_lt ha hb fun _ _ => nofun, blurred_comm,
        blurred_integer_real_iff]
      exact Binary64.scaled_lt_scaled_ofInt_iff ha
    | real y =>
      rw [below_iff_rounded_lt ha hb fun _ _ => nofun,
        and_iff_left (not_blurred_real x y)]
      exact Iff.rfl

/-- **A comparison is one of exact values, unless the two are blurred.** -/
theorem above_iff_value_lt (hp : a.value? = some p) (hq : b.value? = some q) :
    a.above b = true ↔ q < p ∧ ¬ a.Blurred b := by
  rw [← below_eq_above,
    below_iff_units_lt (isNaN_of_value? hq) (isNaN_of_value? hp),
    value_lt_iff hq hp, blurred_comm]

end Number

end CanCatalog
