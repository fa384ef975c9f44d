import CanCatalog.Proofs.Number.Natural
import Mathlib.Algebra.Group.Int.Defs
import Mathlib.Algebra.Group.Nat.Defs

/-!
# Integers up to the limits of their types

A run of digits has a value, whatever its length: every digit counts for as
much as its place says. Reading adds the digits up from the front, and what it
adds up is this value (`ofDigitChars_eq`). Nothing is cut off on the way,
because the value is held against a type only when it is complete. So zeros in
front are of no consequence, and a long text may be a small number.

The limits of a signed type are not symmetric, and the least integer has a
magnitude that no other has. It is no exception here, because the sign is part
of the value that is compared. What is beyond the limits goes one of two ways.
A literal becomes the nearest double, never an integer that is a part of what
was written; a natural numeral is no number at all.
-/

namespace CanCatalog.Numeral

/-! ## The value of digits -/

/-- **The value of digits**: each counts by its place, tens for every digit
behind it. -/
def placeValue : List Char → Nat
  | [] => 0
  | c :: rest => (c.toNat - '0'.toNat) * 10 ^ rest.length + placeValue rest

/-- **Adding up from the front gives the value by places**, behind what has been
added up already. -/
theorem ofDigitChars_eq (digits : List Char) (init : Nat) :
    Nat.ofDigitChars 10 digits init
      = init * 10 ^ digits.length + placeValue digits := by
  induction digits generalizing init with
  | nil => simp [placeValue]
  | cons c rest ih =>
    rw [Nat.ofDigitChars_cons, ih, placeValue, List.length_cons, Nat.pow_succ',
      Nat.add_mul, Nat.add_assoc, Nat.mul_comm 10 init, Nat.mul_assoc]

/-- Digits write their value and no other number. -/
theorem digits_iff {text : List Char} {n : Nat} :
    Digits text n
      ↔ text ≠ [] ∧ (∀ c ∈ text, c.isDigit = true) ∧ n = placeValue text := by
  have hvalue : Nat.ofDigitChars 10 text 0 = placeValue text := by
    rw [ofDigitChars_eq, Nat.zero_mul, Nat.zero_add]
  constructor
  · intro h
    exact ⟨h.ne_nil, h.isDigit, h.value_eq.symm.trans hvalue⟩
  · rintro ⟨hne, hdigit, rfl⟩
    exact ⟨hne, hdigit, hvalue⟩

/-! ## Literals -/

/-- A magnitude with its sign. -/
def signed (negative : Bool) (n : Nat) : Int := if negative then -(n : Int) else n

/-- **A literal of an integer, and which one it is**: digits behind an optional
sign, and white space around them. -/
def IsLiteralOf (token : List Char) (v : Int) : Prop :=
  ∃ negative sign digits, Sign negative sign ∧ digits ≠ []
    ∧ (∀ c ∈ digits, c.isDigit = true) ∧ Text.IsTrimmed token (sign ++ digits)
    ∧ v = signed negative (placeValue digits)

/-- A literal of an integer is one of its sign and its magnitude. -/
theorem isLiteralOf_iff {token : List Char} {v : Int} :
    IsLiteralOf token v
      ↔ ∃ negative n, IsInteger token negative n ∧ v = signed negative n := by
  constructor
  · rintro ⟨negative, sign, digits, hsign, hne, hdigit, htrim, rfl⟩
    exact ⟨negative, _, ⟨sign, digits, hsign, digits_iff.2 ⟨hne, hdigit, rfl⟩,
      htrim⟩, rfl⟩
  · rintro ⟨negative, n, ⟨sign, digits, hsign, hdigits, htrim⟩, rfl⟩
    obtain ⟨hne, hdigit, rfl⟩ := digits_iff.1 hdigits
    exact ⟨negative, sign, digits, hsign, hne, hdigit, htrim, rfl⟩

/-- **The integers of a machine word.** -/
def IsWord64 (v : Int) : Prop := -2 ^ 63 ≤ v ∧ v ≤ 2 ^ 63 - 1

instance (v : Int) : Decidable (IsWord64 v) :=
  inferInstanceAs (Decidable (_ ∧ _))

/-- A machine word holds the integers within its limits. -/
theorem isWord64_iff {v : Int} :
    IsWord64 v ↔ Int64.minValue.toInt ≤ v ∧ v ≤ Int64.maxValue.toInt := by
  have hlow : Int64.minValue.toInt = -2 ^ 63 := by decide
  have hhigh : Int64.maxValue.toInt = 2 ^ 63 - 1 := by decide
  rw [hlow, hhigh]
  rfl

/-- The sign is no part of the magnitude. -/
theorem natAbs_signed (negative : Bool) (n : Nat) :
    (signed negative n).natAbs = n := by
  cases negative with
  | false => exact Int.natAbs_natCast n
  | true => exact (Int.natAbs_neg _).trans (Int.natAbs_natCast n)

/-- What is not zero has a sign. -/
theorem decide_signed_lt (negative : Bool) {n : Nat} (hn : n ≠ 0) :
    decide (signed negative n < 0) = negative := by
  cases negative with
  | false => exact decide_eq_false (Int.not_lt.2 (Int.natCast_nonneg n))
  | true =>
    refine decide_eq_true (Int.neg_neg_of_pos ?_)
    exact Int.natCast_pos.2 (Nat.pos_of_ne_zero hn)

/-- **An integer with a sign is rounded as its magnitude is**, unless it is
zero. -/
theorem ofInt_signed (negative : Bool) {n : Nat} (hn : n ≠ 0) :
    Binary64.ofInt (signed negative n) = Binary64.round negative n 1 := by
  rw [Binary64.ofInt, decide_signed_lt negative hn, natAbs_signed]

/-- What is beyond a machine word is not zero. -/
theorem ne_zero_of_not_isWord64 {negative : Bool} {n : Nat}
    (h : ¬ IsWord64 (signed negative n)) : n ≠ 0 := by
  rintro rfl
  exact h (by cases negative <;> decide)

/-- **An integer is kept if a machine word holds it**, and is the nearest double
otherwise. -/
theorem ofInteger_eq (negative : Bool) (n : Nat) :
    ofInteger negative n
      = if IsWord64 (signed negative n) then
          .integer (Int64.ofInt (signed negative n))
        else .real (Binary64.ofInt (signed negative n)) := by
  have hlimits := isWord64_iff (v := signed negative n)
  change (if Int64.minValue.toInt ≤ signed negative n
      ∧ signed negative n ≤ Int64.maxValue.toInt then
      Number.integer (Int64.ofInt (signed negative n))
    else .real (Binary64.ofDecimal negative n 0)) = _
  by_cases hword : IsWord64 (signed negative n)
  · rw [if_pos hword, if_pos (hlimits.1 hword)]
  · rw [if_neg hword, if_neg (mt hlimits.2 hword), Binary64.ofDecimal_zero,
      ofInt_signed negative (ne_zero_of_not_isWord64 hword)]

/-- **How the literal of an integer is read.** -/
theorem ofLiteral?_of_isLiteralOf {token : List Char} {v : Int}
    (h : IsLiteralOf token v) :
    Number.ofLiteral? token
      = some (if IsWord64 v then .integer (Int64.ofInt v)
        else .real (Binary64.ofInt v)) := by
  obtain ⟨negative, n, hint, rfl⟩ := isLiteralOf_iff.1 h
  rw [Number.ofLiteral?_of_isInteger hint, ofInteger_eq]

/-- **Only the literal of an integer can be kept as one.** -/
theorem exists_isLiteralOf {token : List Char} {v : Int64}
    (h : Number.ofLiteral? token = some (.integer v)) :
    ∃ n, IsLiteralOf token n := by
  rcases Number.ofLiteral?_cases h with ⟨negative, n, hint, -⟩ | ⟨-, x, hx, -⟩
  · exact ⟨_, isLiteralOf_iff.2 ⟨negative, n, hint, rfl⟩⟩
  · exact absurd hx nofun

/-- What is kept as an integer is the integer that was written. -/
theorem ofLiteral?_eq_integer_iff {token : List Char} {v : Int64} :
    Number.ofLiteral? token = some (.integer v)
      ↔ ∃ n, IsLiteralOf token n ∧ IsWord64 n ∧ v.toInt = n := by
  constructor
  · intro h
    obtain ⟨n, hn⟩ := exists_isLiteralOf h
    rw [ofLiteral?_of_isLiteralOf hn] at h
    split at h
    · next hword =>
      obtain rfl := Number.integer.inj (Option.some.inj h)
      exact ⟨n, hn, hword,
        Int64.toInt_ofInt_of_le hword.1 (Int.lt_of_le_sub_one hword.2)⟩
    · exact absurd (Option.some.inj h) nofun
  · rintro ⟨n, hn, hword, rfl⟩
    rw [ofLiteral?_of_isLiteralOf hn, if_pos hword, Int64.ofInt_toInt]

/-! ## Natural numerals -/

/-- **A numeral of a natural number, and which one it is**: digits behind at most
one plus sign, and nothing around them. -/
def IsNumeralOf (token : List Char) (n : Nat) : Prop :=
  ∃ digits, (token = digits ∨ token = '+' :: digits) ∧ digits ≠ []
    ∧ (∀ c ∈ digits, c.isDigit = true) ∧ n = placeValue digits

/-- A natural numeral is one of its value. -/
theorem isNumeralOf_iff {token : List Char} {n : Nat} :
    IsNumeralOf token n ↔ IsNatural token n := by
  constructor
  · rintro ⟨digits, rfl | rfl, hdigits⟩
    · exact .bare (digits_iff.2 hdigits)
    · exact .plus (digits_iff.2 hdigits)
  · intro h
    cases h with
    | bare isDigits => exact ⟨_, .inl rfl, digits_iff.1 isDigits⟩
    | plus isDigits => exact ⟨_, .inr rfl, digits_iff.1 isDigits⟩

/-- A numeral is the numeral of one number only. -/
theorem IsNumeralOf.unique {token : List Char} {n m : Nat}
    (hn : IsNumeralOf token n) (hm : IsNumeralOf token m) : n = m :=
  Option.some.inj ((natural?_eq_some_iff.2 (isNumeralOf_iff.1 hn)).symm.trans
    (natural?_eq_some_iff.2 (isNumeralOf_iff.1 hm)))

/-! ## Both together -/

/-- **Integers are read exactly, up to the limits of their types.** A literal is
kept as an integer exactly if it is digits with at most one sign before them,
white space aside, and a machine word holds their value; and then it is this
value. If no word holds it, the literal is the double nearest to it. A field of
32 bits takes the numerals of its numbers, with the value they have, and refuses
those of larger ones. -/
theorem integers_are_exact (token : List Char) :
    (∀ v : Int64, Number.ofLiteral? token = some (.integer v)
      ↔ ∃ n : Int, IsLiteralOf token n ∧ (-2 ^ 63 ≤ n ∧ n ≤ 2 ^ 63 - 1)
        ∧ v.toInt = n)
    ∧ (∀ n : Int, IsLiteralOf token n → ¬ (-2 ^ 63 ≤ n ∧ n ≤ 2 ^ 63 - 1) →
        Number.ofLiteral? token = some (.real (Binary64.ofInt n)))
    ∧ (∀ v : UInt32, uint32? token = some v
      ↔ ∃ n : Nat, IsNumeralOf token n ∧ n ≤ 2 ^ 32 - 1 ∧ v.toNat = n)
    ∧ ∀ n : Nat, IsNumeralOf token n → 2 ^ 32 - 1 < n →
        uint32? token = none := by
  refine ⟨fun v => ofLiteral?_eq_integer_iff, fun n hn hbeyond => ?_,
    fun v => ?_, fun n hn hbeyond => ?_⟩
  · have hword : ¬ IsWord64 n := hbeyond
    rw [ofLiteral?_of_isLiteralOf hn, if_neg hword]
  · rw [uint32?_eq_some_iff, ← isNumeralOf_iff]
    constructor
    · exact fun h => ⟨_, h, Nat.le_sub_one_of_lt v.toNat_lt, rfl⟩
    · rintro ⟨n, hn, -, rfl⟩
      exact hn
  · refine uint32?_eq_none_iff.2 fun v hv => ?_
    have hvalue := hn.unique (isNumeralOf_iff.2 hv)
    have hsize := v.toNat_lt
    omega

/-- The least integer of a word and its neighbour, zeros in front, and a zero
with a sign. -/
example : Number.ofLiteral? "-9223372036854775808".toList
      = some (.integer Int64.minValue)
    ∧ (Number.ofLiteral? "-9223372036854775809".toList).any
        Number.isInteger = false
    ∧ Number.ofLiteral? "+00000000000000000000000007".toList
      = some (.integer 7)
    ∧ Number.ofLiteral? "-0".toList = some (.integer 0) := by
  decide +kernel

end CanCatalog.Numeral
