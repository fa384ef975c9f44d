import CanCatalog.Binary64.Rounding
import CanCatalog.Decimal

/-!
# The shortest digits of a double

A double is written with the fewest digits from which it can be read back.
That leaves two choices open, and both are made here. Of several decimals of
that length which read back, the one nearest to the value is written; of two
equally near, the larger.

The search needs no cleverness, because reading is exact. A decimal of `n`
digits is a multiple of a power of ten which depends only on `n` and on the
position of the leading digit, and the multiples worth trying are the two
around the value: whatever else reads back, one of those two reads back as
well and lies nearer. They are tried for one digit, for two, and so on;
seventeen digits always suffice, and should they not the exact decimal
expansion would be written.
-/

namespace CanCatalog

namespace Binary64

/-- The position of the leading decimal digit of a magnitude: the exponent of
the largest power of ten that is not above it. The scale of `10^324` makes the
smallest magnitude larger than one. -/
def leadingPosition (x : Binary64) : Int :=
  (Nat.toDigits 10 (x.magnitude * Nat.pow 10 324 / one)).length - 325

/-- **The best multiple of a power of ten.** Of the two multiples of
`10^position` around the magnitude, those that read back as `x` are
candidates, and the nearer candidate is taken, the upper one on a tie. -/
def candidate? (x : Binary64) (position : Int) : Option Nat :=
  let num := x.magnitude * Nat.pow 10 (-position).toNat
  let den := one * Nat.pow 10 position.toNat
  let low := num / den
  let high := low + 1
  let readsBack := fun m => ofDecimal x.negative m position == x
  if readsBack low then
    if readsBack high && decide (den ≤ 2 * (num % den)) then some high
    else some low
  else if readsBack high then some high
  else none

/-- The best decimal with the given number of digits. -/
def withDigits? (x : Binary64) (count : Nat) : Option Decimal :=
  let position := x.leadingPosition + 1 - count
  (candidate? x position).map (Decimal.ofScientific · position)

/-- The exact value of a magnitude: a unit of `2^(-1074)` is `5^1074` units of
`10^(-1074)`. -/
def exactDecimal (x : Binary64) : Decimal :=
  Decimal.ofScientific (x.magnitude * Nat.pow 5 1074) (-1074)

/-- **The shortest decimal that reads back.** -/
def shortest (x : Binary64) : Decimal :=
  ((List.range 17).findSome? fun n => withDigits? x (n + 1)).getD
    x.exactDecimal

/-- **The text of a double**: its sign, negative zero included, and its
shortest decimal. -/
def text (x : Binary64) : List Char :=
  if x.isNaN then ['N', 'a', 'N']
  else
    let body := if x.isFinite then x.shortest.text else ['i', 'n', 'f']
    if x.negative then '-' :: body else body

end Binary64

end CanCatalog
