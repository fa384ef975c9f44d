import CanCatalog.Proofs.Number.Value

/-!
# Numbers that are integers

A number is asked for the integer that it is, because what is recorded as a
double may well be a count. Whether it is one is a matter of its exact value
(`Number.IsWhole`), and the value of a double is a count of units; so it is an
integer if the units are a multiple of a one, whatever its exponent. Large
doubles have no fractional part and are integers without exception.

The answer is an integer of a machine word, and that is where one is missed. The
limits are tested on the magnitude, by a bound that is the same for both signs,
and a word reaches down to `-2^63`. The double of this value is refused although
the integer of this value is not, and although the two are equal. It is the only
integer of a word that is not given for its double.
-/

namespace CanCatalog

/-- A rational number is itself among the rational numbers with two ends. -/
theorem ExtendedRat.ofRat_inj {p q : ℚ} : ofRat p = ofRat q ↔ p = q :=
  WithBot.coe_inj.trans WithTop.coe_inj

namespace Binary64

variable {x : Binary64} {n : Int}

/-- A finite double is no code without a number. -/
theorem isInfinite_of_isFinite (h : x.isFinite = true) : x.isInfinite = false :=
  beq_eq_false_iff_ne.2 (Nat.ne_of_lt (of_decide_eq_true h))

/-- **A number is finite, infinite or none**, by its code. -/
theorem isFinite_of_not (hnan : x.isNaN = false) (hinf : x.isInfinite = false) :
    x.isFinite = true :=
  decide_eq_true (Nat.lt_of_le_of_ne (Nat.not_lt.1 (of_decide_eq_false hnan))
    (beq_eq_false_iff_ne.1 hinf))

/-- **Which doubles have a rational value**: the finite ones. -/
theorem value?_eq_ofRat_iff {q : ℚ} :
    x.value? = some (.ofRat q) ↔ x.isFinite = true ∧ x.dyadic = q := by
  unfold value?
  cases hnan : x.isNaN with
  | true =>
    refine iff_of_false nofun fun h => ?_
    exact Bool.false_ne_true ((isNaN_of_isFinite h.1).symm.trans hnan)
  | false =>
    rw [if_neg Bool.false_ne_true]
    cases hinf : x.isInfinite with
    | true =>
      refine iff_of_false ?_ fun h => ?_
      · rw [if_pos rfl, Option.some_inj]
        split
        · exact WithBot.bot_ne_coe
        · exact fun h => WithTop.top_ne_coe (WithBot.coe_inj.1 h)
      · exact Bool.false_ne_true ((isInfinite_of_isFinite h.1).symm.trans hinf)
    | false =>
      rw [if_neg Bool.false_ne_true, Option.some_inj, ExtendedRat.ofRat_inj,
        and_iff_right (isFinite_of_not hnan hinf)]

/-- **A double is an integer if its units are so many ones.** -/
theorem dyadic_eq_intCast_iff : x.dyadic = n ↔ x.scaled = n * one := by
  have hone : (one : ℚ) ≠ 0 := Nat.cast_ne_zero.2 (Nat.ne_of_gt one_pos)
  rw [dyadic_eq, div_eq_iff hone]
  exact_mod_cast Iff.rfl

/-- **The integer that a double is** is found in its magnitude. -/
theorem toInt?_eq_some_iff :
    x.toInt? = some n ↔ x.isFinite = true ∧ x.scaled = n * one := by
  have hone : (0 : Int) < one := Int.natCast_pos.2 one_pos
  unfold toInt?
  rw [Option.ite_none_right_eq_some, Bool.and_eq_true, beq_iff_eq, and_assoc,
    Option.some_inj]
  refine and_congr_right fun _ => ?_
  constructor
  · rintro ⟨hmod, rfl⟩
    have hwhole : ((x.magnitude / one : Nat) : Int) * one = x.magnitude := by
      exact_mod_cast Nat.div_mul_cancel (Nat.dvd_of_mod_eq_zero hmod)
    unfold scaled
    split
    · rw [Int.neg_mul, hwhole]
    · exact hwhole.symm
  · intro h
    have hmagnitude : x.magnitude = n.natAbs * one := by
      rw [← natAbs_scaled, h, Int.natAbs_mul, Int.natAbs_natCast]
    rw [hmagnitude, Nat.mul_mod_left, Nat.mul_div_cancel _ one_pos]
    refine ⟨rfl, ?_⟩
    -- the sign is that of the integer, unless this is zero
    unfold scaled at h
    rw [hmagnitude, Int.natCast_mul] at h
    refine Int.eq_of_mul_eq_mul_right (Int.ne_of_gt hone) (h ▸ ?_)
    split
    · exact Int.neg_mul _ _
    · rfl

end Binary64

namespace Number

/-- **The number is an integer**, by its exact value. -/
def IsWhole (a : Number) (n : Int) : Prop := a.value? = some (.ofRat n)

/-- A double is an integer if it is finite and its units are so many ones. -/
theorem isWhole_real_iff {x : Binary64} {n : Int} :
    (real x).IsWhole n ↔ x.isFinite = true ∧ x.scaled = n * Binary64.one :=
  Binary64.value?_eq_ofRat_iff.trans
    (and_congr_right fun _ => Binary64.dyadic_eq_intCast_iff)

/-- A double is asked for its integer, which must be small enough. -/
theorem toInt?_real_iff {x : Binary64} {n : Int} :
    (real x).toInt? = some n ↔ (real x).IsWhole n ∧ n.natAbs < 2 ^ 63 := by
  unfold toInt?
  rw [Option.filter_eq_some_iff, Binary64.toInt?_eq_some_iff, isWhole_real_iff,
    decide_eq_true_eq]
  exact Iff.rfl

/-- **An integer equals the double of its value**, even where integers are
rounded. -/
theorem sameAs_of_isWhole {v : Int64} {x : Binary64}
    (h : (real x).IsWhole v.toInt) : (integer v).sameAs (real x) = true := by
  obtain ⟨hfinite, hunits⟩ := isWhole_real_iff.1 h
  have hnumber := Binary64.isNaN_of_isFinite hfinite
  refine sameAs_iff.2 ⟨⟨rfl, hnumber⟩, ?_, fun _ _ _ => nofun⟩
  exact Int.le_antisymm
    (Binary64.scaled_ofInt_le hnumber (Int.le_of_eq hunits.symm))
    (Binary64.le_scaled_ofInt hnumber (Int.le_of_eq hunits))

/-- **Which integer a number is.** A double has an answer exactly if its exact
value is an integer that is above `-2^63` and at most `2^63 - 1`, and the answer is
this value; it has none if it is not finite, has a fractional part or is out of
these limits. An integer is itself. And what a double answers is an integer of a
machine word which equals the double. -/
theorem integer_exact_above_least (x : Binary64) (v : Int64) :
    (∀ n, (real x).toInt? = some n
      ↔ (real x).IsWhole n ∧ -2 ^ 63 < n ∧ n ≤ 2 ^ 63 - 1)
    ∧ ((real x).toInt? = none
      ↔ ∀ n, (real x).IsWhole n → ¬ (-2 ^ 63 < n ∧ n ≤ 2 ^ 63 - 1))
    ∧ (∀ n, (real x).toInt? = some n →
        ∃ u : Int64, u.toInt = n ∧ (integer u).sameAs (real x) = true)
    ∧ (integer v).toInt? = some v.toInt := by
  have hanswer : ∀ n, (real x).toInt? = some n
      ↔ (real x).IsWhole n ∧ -2 ^ 63 < n ∧ n ≤ 2 ^ 63 - 1 := by
    intro n
    rw [toInt?_real_iff]
    exact and_congr_right fun _ => by omega
  refine ⟨hanswer, ?_, fun n hn => ?_, rfl⟩
  · rw [Option.eq_none_iff_forall_ne_some]
    exact forall_congr' fun n => (not_congr (hanswer n)).trans not_and
  · obtain ⟨hwhole, hlow, hhigh⟩ := (hanswer n).1 hn
    obtain ⟨u, rfl⟩ : ∃ u : Int64, u.toInt = n :=
      ⟨Int64.ofInt n, Int64.toInt_ofInt_of_le (Int.le_of_lt hlow)
        (Int.lt_of_le_sub_one hhigh)⟩
    exact ⟨u, rfl, sameAs_of_isWhole hwhole⟩

/-- **One integer is missed.** The double of `-2^63` is this integer, which is the
least of a machine word and is equal to it; and it has no answer. -/
theorem least_integer_missed :
    (real (Binary64.ofBits 0xC3E0000000000000)).IsWhole (-2 ^ 63)
      ∧ (integer Int64.minValue).sameAs
          (real (Binary64.ofBits 0xC3E0000000000000)) = true
      ∧ (integer Int64.minValue).toInt? = some (-2 ^ 63)
      ∧ (real (Binary64.ofBits 0xC3E0000000000000)).toInt? = none := by
  refine ⟨isWhole_real_iff.2 ?_, ?_, ?_, ?_⟩
  all_goals decide +kernel

/-- Both zeros are zero, `2^62` is an integer, and `0.5` is none. -/
example : (real (.zero true)).toInt? = some 0
    ∧ (real (.ofInt (2 ^ 62))).toInt? = some (2 ^ 62)
    ∧ (real (.ofDecimal false 5 (-1))).toInt? = none := by
  decide +kernel

end Number

end CanCatalog
