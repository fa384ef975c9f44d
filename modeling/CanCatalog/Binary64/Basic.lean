/-!
# Double precision numbers as integers

A decimal literal that is not a machine integer is kept as a double precision
number, and everything that is asked of it afterwards – which of two bounds is
larger, whether it is whole, which digits write it – is a question about the
value it denotes. So a number is represented here by the two things its
encoding is made of, a sign and a 63-bit code, and its value is read off as an
*integer*: every finite double is a multiple of `2^(-1074)`, so that its
multiple says everything and no rational arithmetic is needed.

The code is an exponent field above a 52-bit fraction field. What makes it a
convenient representation is that it is ordered as the magnitudes are: the
next larger code is the next larger magnitude, across the boundaries of
exponents and up to the code of infinity, above which there are only codes
that denote no number at all.

The two powers of two that take an encoding apart are written as hexadecimal
literals: `0x8000000000000000` is `2^63`, the weight of the sign, and
`0x10000000000000` is `2^52`, the weight of the exponent field.
-/

namespace CanCatalog

/-- **A double precision number**, by its sign and the 63 bits below it. -/
structure Binary64 where
  /-- The sign; both zeros and the codes that are no number have one too. -/
  negative : Bool
  /-- The exponent field (11 bits) above the fraction field (52 bits). -/
  code : Nat
  /-- The code has 63 bits. -/
  code_lt : code < 0x8000000000000000
deriving DecidableEq

namespace Binary64

/-! ## Encoding -/

/-- The number that a 64-bit word encodes: its top bit is the sign. -/
def ofBits (w : UInt64) : Binary64 where
  negative := decide (0x8000000000000000 ≤ w.toNat)
  code := w.toNat % 0x8000000000000000
  code_lt := Nat.mod_lt _ (by decide)

/-- The 64-bit word that encodes a number. -/
def toBits (x : Binary64) : UInt64 :=
  UInt64.ofNat ((if x.negative then 0x8000000000000000 else 0) + x.code)

theorem toNat_toBits (x : Binary64) :
    x.toBits.toNat
      = (if x.negative then 0x8000000000000000 else 0) + x.code := by
  have := x.code_lt
  simp only [toBits, UInt64.toNat_ofNat']
  apply Nat.mod_eq_of_lt
  split <;> omega

/-- **A number is what its word encodes.** -/
@[simp] theorem ofBits_toBits (x : Binary64) : ofBits x.toBits = x := by
  have h := x.code_lt
  have hn := toNat_toBits x
  cases x with
  | mk s c hc =>
    simp only [ofBits, hn, mk.injEq]
    cases s <;> simp <;> omega

/-- **A word is the encoding of what it encodes.** -/
@[simp] theorem toBits_ofBits (w : UInt64) : (ofBits w).toBits = w := by
  have h := w.toNat_lt
  apply UInt64.toNat_inj.1
  rw [toNat_toBits]
  simp only [ofBits, decide_eq_true_eq]
  split <;> omega

/-! ## Fields -/

/-- The exponent field: 0 for zeros and subnormal numbers, 2047 for infinities
and codes that are no number. -/
def exponentField (x : Binary64) : Nat := x.code / 0x10000000000000

/-- The fraction field. -/
def fractionField (x : Binary64) : Nat := x.code % 0x10000000000000

/-- The code of infinity: the largest exponent field over an empty fraction. -/
def infinityCode : Nat := 0x7FF0000000000000

theorem infinityCode_lt : infinityCode < 0x8000000000000000 := by decide

/-- An ordinary number, neither infinite nor undefined. -/
def isFinite (x : Binary64) : Bool := decide (x.code < infinityCode)

/-- One of the two infinities. -/
def isInfinite (x : Binary64) : Bool := x.code == infinityCode

/-- A code that denotes no number, such as the result of `0 / 0`. -/
def isNaN (x : Binary64) : Bool := decide (infinityCode < x.code)

/-- The zero of a sign. -/
def zero (negative : Bool) : Binary64 := ⟨negative, 0, by decide⟩

/-- The infinity of a sign. -/
def infinity (negative : Bool) : Binary64 :=
  ⟨negative, infinityCode, infinityCode_lt⟩

/-- What is no number, with a sign: of all such codes the one that arises where a
text names none. -/
def nan (negative : Bool) : Binary64 :=
  ⟨negative, 0x7FF8000000000000, by decide⟩

/-! ## Value -/

/-- **The magnitude, in units of `2^(-1074)`.** A subnormal number is its
fraction; a normal one has a leading bit above the fraction and is shifted by
its exponent. The infinities come out as `2^2098`, above every finite number. -/
def magnitude (x : Binary64) : Nat :=
  if x.exponentField = 0 then x.fractionField
  else (0x10000000000000 + x.fractionField) <<< (x.exponentField - 1)

/-- The number of units of `2^(-1074)` in a one. -/
def one : Nat := 1 <<< 1074

/-- The value with its sign, in units of `2^(-1074)`. Both zeros are `0`. -/
def scaled (x : Binary64) : Int :=
  if x.negative then -(x.magnitude : Int) else x.magnitude

/-- **The order of values.** Two numbers compare as their values do, so the two
zeros are equal; what is no number compares with nothing, itself included. -/
def compare? (x y : Binary64) : Option Ordering :=
  if x.isNaN || y.isNaN then none else some (compare x.scaled y.scaled)

/-- The integer that a finite number is, if it has no fractional part. -/
def toInt? (x : Binary64) : Option Int :=
  if x.isFinite && x.magnitude % one == 0 then
    some (if x.negative then -((x.magnitude / one : Nat) : Int)
      else (x.magnitude / one : Nat))
  else none

end Binary64

end CanCatalog
