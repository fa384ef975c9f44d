import CanCatalog.Binary64.Basic

/-!
# Rounding to the nearest double

An exact quotient of two natural numbers becomes a double in three steps: find
the exponent that leaves 53 significant bits in the integer part of the
quotient, round that quotient to the nearest integer with ties to the even
one, and put the two together. The last step is an addition. Because codes are
ordered as magnitudes are, `exponent * 2^52 + significand` is the right code
in every case at once: for subnormal results, for a significand that rounding
carried into the next power of two, and – cut off at the code of infinity – on
overflow.
-/

namespace CanCatalog

/-- **The nearest integer to `a / d`**, and of two equally near the even one. -/
def nearestEven (a d : Nat) : Nat :=
  let q := a / d
  let r := a % d
  if 2 * r < d then q
  else if d < 2 * r then q + 1
  else if q % 2 = 0 then q else q + 1

namespace Binary64

/-- The exponent of the unit in the last place of `a / d`: the quotient is cut
to 53 bits, and no unit is smaller than 1. -/
def unitExponent (a d : Nat) : Nat := Nat.log2 (a / d) - 52

/-- The code nearest to `a / d` units of `2^(-1074)`. -/
def codeNearest (a d : Nat) : Nat :=
  let p := unitExponent a d
  min (p * 0x10000000000000 + nearestEven a (d <<< p)) infinityCode

theorem codeNearest_lt (a d : Nat) : codeNearest a d < 0x8000000000000000 :=
  Nat.lt_of_le_of_lt (Nat.min_le_right _ _) infinityCode_lt

/-- **The double nearest to `num / den`** with the given sign, ties to the even
significand, overflow to infinity, underflow to the zero of that sign. -/
def round (negative : Bool) (num den : Nat) : Binary64 where
  negative := negative
  code := codeNearest (num * one) den
  code_lt := codeNearest_lt _ _

/-- The double nearest to an integer; zero is positive. -/
def ofInt (v : Int) : Binary64 := round (decide (v < 0)) v.natAbs 1

/-! ## Decimals -/

/-- Above this power of ten every decimal but zero is infinite. -/
def decimalCeiling : Int := 400

/-- Below this power of ten a decimal with these digits is zero: it is smaller
than half of the smallest double. -/
def decimalFloor (digits : Nat) : Int := -(400 + digits.log2)

/-- The exponent of a decimal, moved to the nearer end of the range outside of
which it no longer matters. A literal may have an exponent of any length, and
its power of ten must not be computed. -/
def clampExponent (digits : Nat) (exponent : Int) : Int :=
  max (decimalFloor digits) (min exponent decimalCeiling)

/-- **The double nearest to `digits · 10^exponent`** with the given sign. -/
def ofDecimal (negative : Bool) (digits : Nat) (exponent : Int) : Binary64 :=
  let e := clampExponent digits exponent
  round negative (digits * Nat.pow 10 e.toNat) (Nat.pow 10 (-e).toNat)

end Binary64

end CanCatalog
