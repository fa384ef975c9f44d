import CanCatalog.Number.Numeral
import CanCatalog.Proofs.Binary64.Decimals
import CanCatalog.Proofs.Text.Word

/-!
# Literals of integers, and literals without a number

A literal is either the literal of an integer, which is digits with at most one
sign before them, or it has a point or an exponent. The two are read in
different ways, and they are treated differently where doubles end. What has a
point or an exponent and is too large is refused. An integer never is: beyond
the machine word it is kept as the nearest double, and beyond the doubles the
nearest double is infinite.

So a literal can denote an infinite number, and it does so exactly if it is the
literal of an integer that doubles do not reach (`Oversized`), which takes 309
digits. It never denotes what is no number at all.
-/

namespace CanCatalog

namespace Numeral

/-! ## Integers as they are written -/

/-- **A sign before a number**, which may be missing; only a minus makes the
number negative. -/
inductive Sign : Bool → List Char → Prop where
  /-- Nothing is before the number. -/
  | absent : Sign false []
  /-- A plus, which says nothing. -/
  | plus : Sign false ['+']
  /-- A minus. -/
  | minus : Sign true ['-']

/-- **Digits that write a natural number**, leading zeros included. -/
structure Digits (text : List Char) (n : Nat) : Prop where
  /-- There is at least one. -/
  ne_nil : text ≠ []
  /-- There is nothing else. -/
  isDigit : ∀ c ∈ text, c.isDigit = true
  /-- The number is their value. -/
  value_eq : Nat.ofDigitChars 10 text 0 = n

/-- **A literal of an integer**, given its sign and its magnitude: digits after
an optional sign, and white space around them. -/
def IsInteger (token : List Char) (negative : Bool) (n : Nat) : Prop :=
  ∃ sign digits, Sign negative sign ∧ Digits digits n
    ∧ Text.IsTrimmed token (sign ++ digits)

/-- Digits are recognized. -/
theorem digits?_eq_some_iff {text : List Char} {n : Nat} :
    digits? text = some n ↔ Digits text n := by
  unfold digits?
  constructor
  · intro h
    split at h
    · next hdigits =>
      rw [Bool.and_eq_true, Bool.not_eq_true', List.isEmpty_eq_false_iff,
        List.all_eq_true] at hdigits
      exact ⟨hdigits.1, hdigits.2, Option.some.inj h⟩
    · exact absurd h (by simp)
  · intro h
    rw [if_pos, h.value_eq]
    rw [Bool.and_eq_true, Bool.not_eq_true', List.isEmpty_eq_false_iff,
      List.all_eq_true]
    exact ⟨h.ne_nil, h.isDigit⟩

/-- A sign that is split off was there. -/
theorem exists_sign_of_splitSign {text body : List Char} {negative : Bool}
    (h : splitSign text = (negative, body)) :
    ∃ sign, Sign negative sign ∧ text = sign ++ body := by
  unfold splitSign at h
  split at h <;> obtain ⟨rfl, rfl⟩ := Prod.mk.inj h
  · exact ⟨['-'], .minus, rfl⟩
  · exact ⟨['+'], .plus, rfl⟩
  · exact ⟨[], .absent, rfl⟩

/-- Digits begin with a digit. -/
theorem Digits.head?_ne {digits : List Char} {n : Nat} (h : Digits digits n)
    {c : Char} (hc : c.isDigit = false) : digits.head? ≠ some c :=
  fun hhead => Bool.eq_false_iff.1 hc (h.isDigit c (List.mem_of_head? hhead))

/-- **A sign is split off what does not begin with one.** -/
theorem Sign.splitSign_append_of_head? {negative : Bool}
    {sign body : List Char} (h : Sign negative sign)
    (hminus : body.head? ≠ some '-') (hplus : body.head? ≠ some '+') :
    splitSign (sign ++ body) = (negative, body) := by
  cases h with
  | plus => rfl
  | minus => rfl
  | absent =>
    rw [List.nil_append]
    unfold splitSign
    split
    · exact absurd rfl hminus
    · exact absurd rfl hplus
    · rfl

/-- A sign before digits is split off: digits are not taken for a sign. -/
theorem Sign.splitSign_append {negative : Bool} {sign digits : List Char}
    {n : Nat} (h : Sign negative sign) (hdigits : Digits digits n) :
    splitSign (sign ++ digits) = (negative, digits) :=
  h.splitSign_append_of_head? (hdigits.head?_ne (by decide))
    (hdigits.head?_ne (by decide))

/-- **How literals of integers are recognized.** -/
theorem isInteger_iff {token : List Char} {negative : Bool} {n : Nat} :
    IsInteger token negative n
      ↔ ∃ body, splitSign (Text.trim token) = (negative, body)
        ∧ digits? body = some n := by
  constructor
  · rintro ⟨sign, digits, hsign, hdigits, htrim⟩
    rw [htrim.trim_eq]
    exact ⟨digits, hsign.splitSign_append hdigits,
      digits?_eq_some_iff.2 hdigits⟩
  · rintro ⟨body, hsplit, hbody⟩
    obtain ⟨sign, hsign, htrim⟩ := exists_sign_of_splitSign hsplit
    exact ⟨sign, body, hsign, digits?_eq_some_iff.1 hbody,
      Text.trim_eq_iff.1 htrim⟩

/-! ## Integers as numbers -/

/-- **An integer as a number**: exactly if a machine word holds it, and as the
nearest double otherwise. -/
def ofInteger (negative : Bool) (magnitude : Nat) : Number :=
  let v : Int := if negative then -(magnitude : Int) else magnitude
  if Int64.minValue.toInt ≤ v ∧ v ≤ Int64.maxValue.toInt then
    .integer (Int64.ofInt v)
  else .real (Binary64.ofDecimal negative magnitude 0)

/-- Digits are a decimal without a point and without an exponent. -/
theorem Digits.decimal?_eq {digits : List Char} {n : Nat}
    (h : Digits digits n) : decimal? digits = some (n, 0) := by
  have hall : digits.all Char.isDigit = true := List.all_eq_true.2 h.isDigit
  have hsplit : splitDigits digits = (digits, []) := by
    unfold splitDigits
    rw [← List.append_nil digits, List.takeWhile_append_of_pos h.isDigit,
      List.dropWhile_append_of_pos h.isDigit]
    simp
  simp [decimal?, hsplit, exponent?, h.ne_nil, h.value_eq]

/-- **The two readers for machine numbers read digits as an integer**: as a word if
one holds it, and as a double. -/
theorem Digits.machine_eq {text digits : List Char} {negative : Bool} {n : Nat}
    (hsplit : splitSign text = (negative, digits)) (h : Digits digits n) :
    ((int64? text).map Number.integer).or ((double? text).map .real)
      = some (ofInteger negative n) := by
  have hdouble : double? text = some (Binary64.ofDecimal negative n 0) := by
    simp only [double?, hsplit, h.decimal?_eq]
  rw [hdouble]
  unfold int64? ofInteger
  rw [hsplit]
  dsimp only
  rw [digits?_eq_some_iff.2 h, Option.bind_some]
  generalize (if negative then -(n : Int) else n) = v
  split
  · rfl
  · rfl

/-! ## Integers beyond the doubles -/

/-- **An integer that doubles do not reach.** -/
def Oversized (token : List Char) : Prop :=
  ∃ negative n, IsInteger token negative n ∧ Binary64.wholeCeiling ≤ n

/-- An integer is kept exactly only if it is small, and as a double
otherwise. -/
theorem ofInteger_cases (negative : Bool) (n : Nat) :
    (∃ v, ofInteger negative n = .integer v) ∧ n ≤ 0x8000000000000000
      ∨ ofInteger negative n = .real (Binary64.round negative n 1) := by
  have hlow : Int64.minValue.toInt = -0x8000000000000000 := by decide
  have hhigh : Int64.maxValue.toInt = 0x7FFFFFFFFFFFFFFF := by decide
  obtain ⟨v, hv⟩ :
      ∃ v : Int, (if negative then -(n : Int) else n) = v := ⟨_, rfl⟩
  have hn : v.natAbs = n := by
    split at hv <;> omega
  unfold ofInteger
  dsimp only
  rw [hv, hlow, hhigh, Binary64.ofDecimal_zero]
  split
  · next hword => exact .inl ⟨⟨_, rfl⟩, by omega⟩
  · exact .inr rfl

/-- An integer is a number. -/
@[simp] theorem isNaN_ofInteger (negative : Bool) (n : Nat) :
    (ofInteger negative n).isNaN = false := by
  rcases ofInteger_cases negative n with ⟨⟨v, h⟩, -⟩ | h <;> rw [h]
  · rfl
  · exact Binary64.isNaN_round _ _ _

/-- **An integer is finite below the end of the doubles.** What is kept exactly
is far below it. -/
theorem isFinite_ofInteger_iff {negative : Bool} {n : Nat} :
    (ofInteger negative n).isFinite = true ↔ n < Binary64.wholeCeiling := by
  rcases ofInteger_cases negative n with ⟨⟨v, h⟩, hsmall⟩ | h <;> rw [h]
  · exact iff_of_true rfl (Nat.lt_of_le_of_lt hsmall (by decide +kernel))
  · exact Binary64.isFinite_round_whole

end Numeral

open Numeral (IsInteger Oversized isInteger_iff)

namespace Number

/-! ## Reading a literal -/

variable {token body : List Char} {negative : Bool} {n : Nat}

/-- **Digits behind a sign are read as an integer.** -/
theorem ofLiteral?_of_digits
    (hsplit : Numeral.splitSign (Text.trim token) = (negative, body))
    (h : Numeral.Digits body n) :
    ofLiteral? token = some (Numeral.ofInteger negative n) := by
  unfold ofLiteral?
  dsimp only
  rw [hsplit, if_neg (by simp [h.ne_nil]),
    if_pos (List.all_eq_true.2 h.isDigit), h.machine_eq hsplit]

/-- **What is not digits behind a sign is looked at, and then read as a
double**, which has to be finite. -/
theorem ofLiteral?_of_not_digits
    (hsplit : Numeral.splitSign (Text.trim token) = (negative, body))
    (h : Numeral.digits? body = none) :
    ofLiteral? token
      = if body.any Char.isDigit && body.all Numeral.isDecimalChar then
          ((Numeral.double? (Text.trim token)).filter
            Binary64.isFinite).map .real
        else none := by
  unfold ofLiteral?
  dsimp only
  rw [hsplit]
  by_cases hempty : body.isEmpty = true
  · rw [if_pos hempty, List.isEmpty_iff.1 hempty]
    rfl
  · have hall : ¬ body.all Char.isDigit = true := by
      intro hall
      unfold Numeral.digits? at h
      rw [hall, Bool.eq_false_iff.2 hempty] at h
      exact absurd h nofun
    rw [if_neg hempty, if_neg hall]

/-- **A literal of an integer is always read.** -/
theorem ofLiteral?_of_isInteger (h : IsInteger token negative n) :
    ofLiteral? token = some (Numeral.ofInteger negative n) := by
  obtain ⟨body, hsplit, hbody⟩ := isInteger_iff.1 h
  exact ofLiteral?_of_digits hsplit (Numeral.digits?_eq_some_iff.1 hbody)

/-- **What is read is the literal of an integer, or a finite double.** -/
theorem ofLiteral?_cases {x : Number} (h : ofLiteral? token = some x) :
    (∃ negative n, IsInteger token negative n
        ∧ x = Numeral.ofInteger negative n)
      ∨ ((∀ negative n, ¬ IsInteger token negative n)
        ∧ ∃ v, x = .real v ∧ v.isFinite = true) := by
  obtain ⟨⟨negative, body⟩, hsplit⟩ :
      ∃ parts, Numeral.splitSign (Text.trim token) = parts := ⟨_, rfl⟩
  cases hbody : Numeral.digits? body with
  | some n =>
    have hint : IsInteger token negative n :=
      isInteger_iff.2 ⟨body, hsplit, hbody⟩
    rw [ofLiteral?_of_isInteger hint] at h
    exact .inl ⟨negative, n, hint, (Option.some.inj h).symm⟩
  | none =>
    refine .inr ⟨fun negative' n hint => ?_, ?_⟩
    · obtain ⟨body', hsplit', hbody'⟩ := isInteger_iff.1 hint
      obtain ⟨-, rfl⟩ := Prod.mk.inj (hsplit.symm.trans hsplit')
      exact absurd (hbody.symm.trans hbody') nofun
    · rw [ofLiteral?_of_not_digits hsplit hbody] at h
      obtain ⟨-, h⟩ := Option.ite_none_right_eq_some.1 h
      obtain ⟨v, hv, rfl⟩ := Option.map_eq_some_iff.1 h
      exact ⟨v, rfl, (Option.filter_eq_some_iff.1 hv).2⟩

/-- **A literal denotes a number**, if an infinite one. -/
theorem isNaN_of_ofLiteral? {x : Number}
    (h : ofLiteral? token = some x) : x.isNaN = false := by
  rcases ofLiteral?_cases h with ⟨negative, n, -, rfl⟩ | ⟨-, v, rfl, hfinite⟩
  · exact Numeral.isNaN_ofInteger negative n
  · exact Binary64.isNaN_of_isFinite hfinite

/-- **A number that was read is finite unless it was written as an integer that
doubles do not reach.** -/
theorem isFinite_iff_not_oversized {x : Number}
    (h : ofLiteral? token = some x) :
    x.isFinite = true ↔ ¬ Oversized token := by
  constructor
  · rintro hfinite ⟨negative, n, hint, hle⟩
    rw [ofLiteral?_of_isInteger hint] at h
    obtain rfl := Option.some.inj h
    exact Nat.not_lt.2 hle (Numeral.isFinite_ofInteger_iff.1 hfinite)
  · intro hsize
    rcases ofLiteral?_cases h with ⟨negative, n, hint, rfl⟩ | ⟨-, v, rfl, hfinite⟩
    · refine Numeral.isFinite_ofInteger_iff.2 (Nat.lt_of_not_le fun hle => ?_)
      exact hsize ⟨negative, n, hint, hle⟩
    · exact hfinite

/-- **The literals of infinite numbers** are the integers that doubles do not
reach, and all of these are read. -/
theorem exists_infinite_iff_oversized :
    (∃ x, ofLiteral? token = some x ∧ x.isFinite = false)
      ↔ Oversized token := by
  constructor
  · rintro ⟨x, hx, hinfinite⟩
    refine Classical.not_not.1 fun hsize => ?_
    rw [(isFinite_iff_not_oversized hx).2 hsize] at hinfinite
    exact Bool.noConfusion hinfinite
  · rintro ⟨negative, n, hint, hle⟩
    have hx := ofLiteral?_of_isInteger hint
    refine ⟨_, hx, Bool.eq_false_iff.2 fun hfinite => ?_⟩
    exact (isFinite_iff_not_oversized hx).1 hfinite ⟨negative, n, hint, hle⟩

end Number

end CanCatalog
