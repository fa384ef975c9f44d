/-!
# Decimals in positional notation

A decimal is a whole number of powers of ten, and here the power is never
positive: a value is written with all its digits, large ones too, and never
with an exponent. So a decimal is a number of units together with the count of
places that a unit stands behind the point.

Writing removes zeros at the end of the fraction, and the point with it when
nothing is left, so that equal values have the same text.
-/

namespace CanCatalog

/-- **A decimal**: `digits` units of `10^(-places)`. -/
structure Decimal where
  /-- How many units. -/
  digits : Nat
  /-- How many digits stand behind the point. -/
  places : Nat
deriving DecidableEq, Repr

namespace Decimal

/-- The decimal `digits · 10^exponent`. -/
def ofScientific (digits : Nat) (exponent : Int) : Decimal :=
  ⟨digits * Nat.pow 10 exponent.toNat, (-exponent).toNat⟩

/-- Removes the zeros at the end of a fraction of the given length. -/
def reduce (digits : Nat) : Nat → Decimal
  | 0 => ⟨digits, 0⟩
  | places + 1 =>
    if digits % 10 = 0 then reduce (digits / 10) places
    else ⟨digits, places + 1⟩

/-- **Reducing keeps the value**: it divides units and scale by one power of
ten. -/
theorem reduce_value (digits places : Nat) :
    (reduce digits places).places ≤ places
      ∧ (reduce digits places).digits
          * Nat.pow 10 (places - (reduce digits places).places) = digits := by
  induction places generalizing digits with
  | zero => simp [reduce]
  | succ n ih =>
    unfold reduce
    split
    · rename_i h
      obtain ⟨hle, hval⟩ := ih (digits / 10)
      refine ⟨Nat.le_succ_of_le hle, ?_⟩
      rw [Nat.succ_sub hle]
      show _ * (Nat.pow 10 _ * 10) = _
      rw [← Nat.mul_assoc, hval]
      omega
    · simp

/-- The decimal digits of a number, with zeros before them up to a width. -/
def padded (width n : Nat) : List Char :=
  let s := Nat.toDigits 10 n
  List.replicate (width - s.length) '0' ++ s

/-- The digits before the point, and behind it as many as there are places. -/
def positional (d : Decimal) : List Char :=
  Nat.toDigits 10 (d.digits / Nat.pow 10 d.places) ++
    match d.places with
    | 0 => []
    | n + 1 => '.' :: padded (n + 1) (d.digits % Nat.pow 10 (n + 1))

/-- **The text of a decimal**: positional, without an idle fraction. -/
def text (d : Decimal) : List Char := (reduce d.digits d.places).positional

example : (ofScientific 5 (-1)).text = ['0', '.', '5'] := by decide
example : (ofScientific 12 2).text = ['1', '2', '0', '0'] := by decide
example : (ofScientific 1200 (-2)).text = ['1', '2'] := by decide

end Decimal

end CanCatalog
