import CanCatalog.Proofs.Number.Grammar
import CanCatalog.Proofs.Number.Integers
import CanCatalog.Proofs.Text.OneLine

/-!
# Decimals in positional notation are literals

A decimal is written with all its digits, the places behind the point filled up
with zeros, and without an exponent. What is written is a literal of the same
value. But it is one of two kinds of literals, and they are read differently: where
no places are left it is the literal of an integer, and it has a point
otherwise.

How many places are left is therefore not only a matter of taste. Zeros at the end
of a fraction are removed before a decimal is written, which changes its digits and
not its value, so that the literal of an integer is written whenever the value is
one.
-/

namespace CanCatalog

open Numeral (Digits Sign Significand IsInteger IsDecimal)

namespace Decimal

/-- **The value of a decimal.** -/
def value (d : Decimal) : ℚ := Binary64.decimalValue d.digits (-d.places)

/-- A decimal is so many units of its last place. -/
theorem value_eq_div (d : Decimal) :
    d.value = (d.digits : ℚ) / ((10 ^ d.places : Nat) : ℚ) := by
  rw [value, Binary64.decimalValue, zpow_neg, zpow_natCast, div_eq_mul_inv,
    Nat.cast_pow, Nat.cast_ofNat]

/-- **A power of ten that is written out leaves the value as it is.** -/
theorem value_ofScientific (digits : Nat) (exponent : Int) :
    (ofScientific digits exponent).value
      = Binary64.decimalValue digits exponent := by
  rw [value_eq_div, Binary64.decimalValue_eq_div]
  rfl

/-! ## Zeros at the end of a fraction -/

/-- The decimal without idle zeros. -/
def reduced (d : Decimal) : Decimal := reduce d.digits d.places

/-- **Zeros at the end of a fraction do not count.** -/
theorem value_reduced (d : Decimal) : d.reduced.value = d.value := by
  obtain ⟨hle, hdigits⟩ : d.reduced.places ≤ d.places
      ∧ d.reduced.digits * 10 ^ (d.places - d.reduced.places) = d.digits :=
    reduce_value d.digits d.places
  have hpower : ∀ n, ((10 ^ n : Nat) : ℚ) ≠ 0 := fun n =>
    Nat.cast_ne_zero.2 (Nat.ne_of_gt (Nat.pow_pos (by decide)))
  have hsplit : d.reduced.digits * 10 ^ d.places
      = d.digits * 10 ^ d.reduced.places := by
    rw [← hdigits, Nat.mul_assoc, ← Nat.pow_add, Nat.sub_add_cancel hle]
  rw [value_eq_div, value_eq_div, div_eq_div_iff (hpower _) (hpower _)]
  exact_mod_cast hsplit

/-- **A whole number keeps no places.** -/
theorem reduce_mul_pow (n places : Nat) :
    reduce (n * 10 ^ places) places = ⟨n, 0⟩ := by
  induction places with
  | zero => rw [Nat.pow_zero, Nat.mul_one, reduce]
  | succ k ih =>
    rw [Nat.pow_succ, ← Nat.mul_assoc, reduce, if_pos (Nat.mul_mod_left _ _),
      Nat.mul_div_cancel _ (by decide), ih]

/-- What counts in ones or in more has no places. -/
theorem places_reduced_ofScientific (n exponent : Nat) :
    (ofScientific n exponent).reduced.places = 0 := by
  show (reduce _ (-(exponent : Int)).toNat).places = 0
  rw [Int.toNat_neg_natCast, reduce]

/-- **What counts in smaller units keeps no places if it is a whole
number.** -/
theorem places_reduced_mul_pow (n places : Nat) :
    (ofScientific (n * 10 ^ places) (-places)).reduced.places = 0 := by
  show (reduce (n * 10 ^ places * 10 ^ (-(places : Int)).toNat)
    (- -(places : Int)).toNat).places = 0
  rw [Int.toNat_neg_natCast, Int.neg_neg, Int.toNat_natCast, Nat.pow_zero,
    Nat.mul_one, reduce_mul_pow]

/-! ## The literal -/

/-- Zeros in front fill the width up. -/
theorem length_padded {width n : Nat} (hwidth : 0 < width)
    (hn : n < 10 ^ width) : (padded width n).length = width := by
  have hlength := (Nat.length_toDigits_le_iff (by decide) hwidth).2 hn
  unfold padded
  dsimp only
  rw [List.length_append, List.length_replicate]
  omega

/-- **Digits with padded digits behind them** write the number with both
parts. -/
theorem digits_append_padded {width n : Nat} (hwidth : 0 < width)
    (hn : n < 10 ^ width) (whole : Nat) :
    Digits (Nat.toDigits 10 whole ++ padded width n)
      (whole * 10 ^ width + n) := by
  have hlength := (Nat.length_toDigits_le_iff (by decide) hwidth).2 hn
  refine ⟨fun h => Nat.toDigits_ne_nil (List.append_eq_nil_iff.1 h).1, ?_, ?_⟩
  · intro c hc
    rcases List.mem_append.1 hc with hc | hc
    · exact Numeral.isDigit_of_mem_toDigits hc
    · rcases List.mem_append.1 hc with hc | hc
      · rw [List.eq_of_mem_replicate hc]
        rfl
      · exact Numeral.isDigit_of_mem_toDigits hc
  · unfold padded
    dsimp only
    rw [Nat.ofDigitChars_append, Nat.ofDigitChars_append,
      Nat.ofDigitChars_ten_toDigits, Nat.ofDigitChars_replicate_zero,
      Nat.ofDigitChars_eq_ofDigitChars_zero, Nat.ofDigitChars_ten_toDigits,
      ← Nat.mul_assoc, ← Nat.pow_add, Nat.add_sub_cancel' hlength,
      Nat.mul_comm]

/-- **A decimal without places is written as its digits.** -/
theorem positional_of_places_eq_zero {d : Decimal} (h : d.places = 0) :
    d.positional = Nat.toDigits 10 d.digits := by
  obtain ⟨digits, places⟩ := d
  obtain rfl : places = 0 := h
  show Nat.toDigits 10 (digits / 1) ++ [] = _
  rw [Nat.div_one, List.append_nil]

/-- **A decimal with places is written with a point.** -/
theorem exists_positional_eq {d : Decimal} (h : d.places ≠ 0) :
    ∃ whole fraction, d.positional = whole ++ '.' :: fraction
      ∧ Digits (whole ++ fraction) d.digits ∧ fraction.length = d.places := by
  obtain ⟨digits, places⟩ := d
  obtain ⟨k, rfl⟩ := Nat.exists_eq_succ_of_ne_zero h
  have hrest : digits % 10 ^ (k + 1) < 10 ^ (k + 1) :=
    Nat.mod_lt _ (Nat.pow_pos (by decide))
  have hdigits := digits_append_padded (Nat.succ_pos k) hrest
    (digits / 10 ^ (k + 1))
  rw [Nat.div_add_mod'] at hdigits
  exact ⟨_, _, rfl, hdigits, length_padded (Nat.succ_pos k) hrest⟩

/-- A sign is no white space. -/
theorem isSolid_of_sign {negative : Bool} {sign : List Char}
    (h : Sign negative sign) : Text.IsSolid sign := by
  cases h with
  | absent => decide
  | plus => decide
  | minus => decide

/-- **The text of a decimal has the form of a decimal**, of the same value. -/
theorem isDecimal_text {negative : Bool} {sign : List Char}
    (hsign : Sign negative sign) (d : Decimal) :
    IsDecimal (sign ++ d.text) negative d.reduced.digits
      (-d.reduced.places) := by
  have hform : Significand d.text d.reduced.digits d.reduced.places := by
    show Significand d.reduced.positional _ _
    by_cases h : d.reduced.places = 0
    · rw [positional_of_places_eq_zero h, h]
      exact .whole (Numeral.digits?_eq_some_iff.1 (Numeral.digits?_toDigits _))
    · obtain ⟨whole, fraction, htext, hdigits, hlength⟩ := exists_positional_eq h
      rw [htext, ← hlength]
      exact .point hdigits
  refine ⟨sign, d.text, hsign, ⟨d.text, [], _, 0, hform, .absent,
    (List.append_nil _).symm, (Int.zero_sub _).symm⟩, ?_⟩
  exact ((isSolid_of_sign hsign).append d.isSolid_text).isTrimmed

/-- A decimal without places is the literal of an integer. -/
theorem isInteger_text {negative : Bool} {sign : List Char}
    (hsign : Sign negative sign) {d : Decimal} (h : d.reduced.places = 0) :
    IsInteger (sign ++ d.text) negative d.reduced.digits := by
  refine ⟨sign, d.text, hsign, ?_,
    ((isSolid_of_sign hsign).append d.isSolid_text).isTrimmed⟩
  show Digits d.reduced.positional _
  rw [positional_of_places_eq_zero h]
  exact Numeral.digits?_eq_some_iff.1 (Numeral.digits?_toDigits _)

/-- **A decimal with places is not the literal of an integer**: it has a
point. -/
theorem not_isInteger_text {sign : List Char} {d : Decimal}
    (h : d.reduced.places ≠ 0) (negative : Bool) (n : Nat) :
    ¬ IsInteger (sign ++ d.text) negative n := by
  obtain ⟨whole, fraction, htext, -, -⟩ := exists_positional_eq h
  have hpoint : '.' ∈ d.text := by
    show '.' ∈ d.reduced.positional
    rw [htext]
    exact List.mem_append_right _ List.mem_cons_self
  intro hint
  exact absurd (Number.isDigit_of_isInteger hint
    (List.mem_append_right sign hpoint) (by decide)) (by decide)

end Decimal

namespace Number

/-- **How the text of a decimal is read**: as the double nearest to the decimal,
unless no places are left and an integer was written. -/
theorem ofLiteral?_text {negative : Bool} {sign : List Char}
    (hsign : Sign negative sign) {d : Decimal} {x : Binary64}
    (hx : Binary64.ofDecimal negative d.digits (-d.places) = x)
    (hfinite : x.isFinite = true) :
    ofLiteral? (sign ++ d.text)
      = some (if d.reduced.places = 0 then
          Numeral.ofInteger negative d.reduced.digits
        else .real x) := by
  have hread : Binary64.ofDecimal negative d.reduced.digits (-d.reduced.places)
      = x := by
    rw [← hx]
    exact Binary64.ofDecimal_congr d.value_reduced negative
  split
  · next h => exact ofLiteral?_of_isInteger (d.isInteger_text hsign h)
  · next h =>
    refine (ofLiteral?_eq_some_iff_isDecimal (d.not_isInteger_text h)).2
      ⟨_, _, _, d.isDecimal_text hsign, ?_, congrArg real hread.symm⟩
    exact Binary64.isFinite_ofDecimal_iff.1 (hread ▸ hfinite)

end Number

end CanCatalog
