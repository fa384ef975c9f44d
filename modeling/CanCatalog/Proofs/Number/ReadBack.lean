import CanCatalog.Proofs.Binary64.Shortest
import CanCatalog.Proofs.Number.Limits
import CanCatalog.Proofs.Number.Whole

/-!
# Numbers are read back from their text

What is written of a number should say what the number is, and the test is to
read it again. It does so for every number that is finite, but not always as a
number of the same kind. A double that is an integer is written without a point,
and then the literal of an integer is read.

This literal need not be the integer that the double is. A double is written with
as few digits as possible and filled up with zeros, and beyond `2^53` the integer
with these digits may be another one. It is only known to be rounded to the double,
and so it equals the double in the order of numbers. Whether a machine word holds
it is a question at one place only: the double `2^63` is the first that no word
holds, and an integer that is rounded to it may be smaller. The one that is
written is not (`shortest_round_wordLimit`).
-/

namespace CanCatalog

open Numeral (signed IsWord64 Sign)

/-! ## Integers and their magnitude -/

namespace Numeral

/-- The value of a zero has no sign. -/
theorem scaled_ofInt_signed (negative : Bool) (n : Nat) :
    (Binary64.ofInt (signed negative n)).scaled
      = (Binary64.round negative n 1).scaled := by
  by_cases hn : n = 0
  · subst hn
    cases negative <;> decide +kernel
  · rw [ofInt_signed negative hn]

/-- A machine word holds all magnitudes below `2^63`, with both signs. -/
theorem isWord64_of_lt {n : Nat} (hn : n < 2 ^ 63) (negative : Bool) :
    IsWord64 (signed negative n) := by
  unfold IsWord64 signed
  split <;> omega

/-- And it holds none above. -/
theorem le_of_isWord64 {negative : Bool} {n : Nat}
    (h : IsWord64 (signed negative n)) : n ≤ 2 ^ 63 := by
  unfold IsWord64 signed at h
  split at h <;> omega

end Numeral

namespace Binary64

variable {x : Binary64}

/-- **A machine word ends at a double.** -/
theorem magnitude_wordLimit (negative : Bool) :
    (round negative (2 ^ 63) 1).magnitude = 2 ^ 63 * one := by
  cases negative <;> decide +kernel

/-- **What is written of the double where a machine word ends** is beyond that
end. -/
theorem shortest_round_wordLimit (negative : Bool) :
    (round negative (2 ^ 63) 1).shortest = ⟨9223372036854776000, 0⟩ := by
  cases negative <;> decide +kernel

/-- **The literal of a double fits a machine word if the double does.** Rounding
keeps the order, so only the double at the limit is in question. -/
theorem isWord64_shortest_iff (hx : x.isFinite = true)
    (hplaces : x.shortest.reduced.places = 0) :
    IsWord64 (signed x.negative x.shortest.reduced.digits)
      ↔ x.magnitude < 2 ^ 63 * one := by
  have hround := round_shortest hx hplaces
  have hmono := @magnitude_round_mono
  constructor
  · intro hword
    have hle := hmono x.negative x.negative (Numeral.le_of_isWord64 hword)
    rw [hround, magnitude_wordLimit] at hle
    refine Nat.lt_of_le_of_ne hle fun heq => ?_
    -- the double at the limit is not written with an integer of a word
    have hlimit : round x.negative (2 ^ 63) 1 = x := by
      refine round_eq_iff.2 ⟨rfl, codeMagnitude_strictMono.injective ?_⟩
      exact (magnitude_wordLimit x.negative).trans heq.symm
    have hdigits : x.shortest.reduced.digits = 9223372036854776000 := by
      rw [← hlimit, shortest_round_wordLimit]
      rfl
    have hbound := Numeral.le_of_isWord64 hword
    omega
  · intro hlt
    refine Numeral.isWord64_of_lt (Nat.lt_of_not_le fun hge => ?_) _
    have hle := hmono x.negative x.negative hge
    rw [hround, magnitude_wordLimit] at hle
    exact Nat.not_lt.2 hle hlt

/-- The text of a finite double is a sign and a decimal. -/
theorem exists_text_eq (hx : x.isFinite = true) :
    ∃ sign, Sign x.negative sign ∧ x.text = sign ++ x.shortest.text := by
  unfold text
  rw [isNaN_of_isFinite hx, if_neg Bool.false_ne_true, hx, if_pos rfl]
  cases x.negative with
  | false => exact ⟨[], .absent, rfl⟩
  | true => exact ⟨['-'], .minus, rfl⟩

/-- **The magnitude of a value.** -/
theorem abs_dyadic (x : Binary64) : |x.dyadic| = x.magnitude / one := by
  rw [dyadic_eq, abs_div, Nat.abs_cast, ← natAbs_scaled, Nat.cast_natAbs,
    Int.cast_abs]

/-- A value is an integer if its magnitude is so many ones. -/
theorem exists_dyadic_eq_iff : (∃ n : ℤ, x.dyadic = n) ↔ one ∣ x.magnitude := by
  simp only [dyadic_eq_intCast_iff, ← natAbs_scaled]
  rw [← Int.natCast_dvd, dvd_iff_exists_eq_mul_left]

/-- A value is as large as its magnitude. -/
theorem abs_dyadic_lt_iff {n : Nat} :
    |x.dyadic| < n ↔ x.magnitude < n * one := by
  rw [abs_dyadic, div_lt_iff₀ (Nat.cast_pos.2 one_pos)]
  exact_mod_cast Iff.rfl

end Binary64

namespace Number

variable {x : Binary64}

/-- **How the text of a double is read.** -/
theorem ofLiteral?_text_real (hx : x.isFinite = true) :
    ofLiteral? (real x).text
      = some (if x.shortest.reduced.places = 0 then
          Numeral.ofInteger x.negative x.shortest.reduced.digits
        else real x) := by
  obtain ⟨sign, hsign, htext⟩ := Binary64.exists_text_eq hx
  show ofLiteral? x.text = _
  rw [htext]
  exact ofLiteral?_text hsign (Binary64.readFrom_shortest hx) hx

/-- **The text of a small integer is read as an integer**, which equals the
double. -/
theorem exists_ofLiteral?_text_eq (hx : x.isFinite = true)
    (hwhole : Binary64.one ∣ x.magnitude)
    (hsmall : x.magnitude < 2 ^ 63 * Binary64.one) :
    ∃ v, ofLiteral? (real x).text = some (integer v)
      ∧ (integer v).sameAs (real x) = true := by
  have hplaces := Binary64.places_shortest_of_dvd hx hwhole
  have hword := (Binary64.isWord64_shortest_iff hx hplaces).2 hsmall
  obtain ⟨v, hv⟩ : ∃ v : Int64,
      v.toInt = signed x.negative x.shortest.reduced.digits :=
    ⟨_, Int64.toInt_ofInt_of_le hword.1 (Int.lt_of_le_sub_one hword.2)⟩
  refine ⟨v, ?_, sameAs_iff.2 ⟨⟨rfl, Binary64.isNaN_of_isFinite hx⟩, ?_,
    fun _ _ _ => nofun⟩⟩
  · rw [ofLiteral?_text_real hx, if_pos hplaces, Numeral.ofInteger_eq,
      if_pos hword, ← hv, Int64.ofInt_toInt]
  · show (Binary64.ofInt v.toInt).scaled = x.scaled
    rw [hv, Numeral.scaled_ofInt_signed, Binary64.round_shortest hx hplaces]

/-- **The text of any other double is read as this double.** -/
theorem ofLiteral?_text_eq_self (hx : x.isFinite = true)
    (hother : Binary64.one ∣ x.magnitude → 2 ^ 63 * Binary64.one ≤ x.magnitude) :
    ofLiteral? (real x).text = some (real x) := by
  rw [ofLiteral?_text_real hx]
  by_cases hplaces : x.shortest.reduced.places = 0
  · have hlarge := hother ((Binary64.places_shortest_eq_zero_iff hx).1 hplaces)
    have hword := mt (Binary64.isWord64_shortest_iff hx hplaces).1
      (Nat.not_lt.2 hlarge)
    rw [if_pos hplaces, Numeral.ofInteger_eq, if_neg hword,
      Numeral.ofInt_signed _ (Numeral.ne_zero_of_not_isWord64 hword),
      Binary64.round_shortest hx hplaces]
  · rw [if_neg hplaces]

/-- **What is no finite number is written with a name**, and a name is no
literal. -/
theorem ofLiteral?_text_of_not_isFinite {a : Number} (h : a.isFinite = false) :
    ofLiteral? a.text = none := by
  have hnames : ofLiteral? ['N', 'a', 'N'] = none
      ∧ ofLiteral? ['i', 'n', 'f'] = none
      ∧ ofLiteral? ['-', 'i', 'n', 'f'] = none := by decide
  cases a with
  | integer v => exact absurd h nofun
  | real x =>
    have hx : x.isFinite = false := h
    show ofLiteral? x.text = none
    unfold Binary64.text
    rw [hx]
    cases x.isNaN with
    | true => exact hnames.1
    | false =>
      cases x.negative with
      | false => exact hnames.2.1
      | true => exact hnames.2.2

/-- **Numbers are read back from their text.** An integer is read as itself. A
double that is finite has an exact value; if this is no integer, or at least
`2^63` in magnitude, the same double is read, and otherwise an integer that equals
it. So whatever is finite is read back as a number that equals it. What is not
finite cannot be read. -/
theorem read_from_text :
    (∀ v : Int64, ofLiteral? (integer v).text = some (integer v))
    ∧ (∀ x : Binary64, x.isFinite = true →
      ∃ q : ℚ, x.value? = some (.ofRat q)
        ∧ ((∀ n : ℤ, q ≠ n) ∨ 2 ^ 63 ≤ |q| →
          ofLiteral? (real x).text = some (real x))
        ∧ ((∃ n : ℤ, q = n) → |q| < 2 ^ 63 →
          ∃ v, ofLiteral? (real x).text = some (integer v)
            ∧ (integer v).sameAs (real x) = true))
    ∧ ∀ a : Number,
      (a.isFinite = true →
        ∃ b, ofLiteral? a.text = some b ∧ b.sameAs a = true)
      ∧ (a.isFinite = false → ofLiteral? a.text = none) := by
  refine ⟨ofLiteral?_integerText, fun x hx => ?_, fun a => ⟨fun ha => ?_,
    ofLiteral?_text_of_not_isFinite⟩⟩
  · have hlimit : |x.dyadic| < 2 ^ 63 ↔ x.magnitude < 2 ^ 63 * Binary64.one := by
      exact_mod_cast Binary64.abs_dyadic_lt_iff (n := 2 ^ 63)
    refine ⟨x.dyadic, Binary64.value?_eq_ofRat_iff.2 ⟨hx, rfl⟩, fun h => ?_,
      fun hwhole hsmall => ?_⟩
    · refine ofLiteral?_text_eq_self hx fun hdvd => ?_
      obtain ⟨n, hn⟩ := Binary64.exists_dyadic_eq_iff.2 hdvd
      exact Nat.not_lt.1 (mt hlimit.2
        (not_lt.2 (h.resolve_left fun hnot => hnot n hn)))
    · exact exists_ofLiteral?_text_eq hx
        (Binary64.exists_dyadic_eq_iff.1 hwhole) (hlimit.1 hsmall)
  · cases a with
    | integer v =>
      exact ⟨_, ofLiteral?_integerText v, sameAs_self_iff.2 rfl⟩
    | real x =>
      by_cases hsmall : Binary64.one ∣ x.magnitude
          ∧ x.magnitude < 2 ^ 63 * Binary64.one
      · obtain ⟨v, hv, hsame⟩ := exists_ofLiteral?_text_eq ha hsmall.1 hsmall.2
        exact ⟨_, hv, hsame⟩
      · refine ⟨_, ofLiteral?_text_eq_self ha fun hdvd => ?_,
          sameAs_self_iff.2 (Binary64.isNaN_of_isFinite ha)⟩
        exact Nat.not_lt.1 fun hlt => hsmall ⟨hdvd, hlt⟩

/-- A double beyond `2^53` is written with digits of another integer. -/
example : (real (.ofInt (2 ^ 60))).text = "1152921504606847000".toList
    ∧ ofLiteral? (real (.ofInt (2 ^ 60))).text = some (integer 1152921504606847000)
    ∧ (real (.ofInt (2 ^ 60))).toInt? = some 1152921504606846976 := by
  decide +kernel

end Number

end CanCatalog
