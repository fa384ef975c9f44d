import CanCatalog.Binary64.Shortest
import CanCatalog.Proofs.Number.Positional

/-!
# Shortest decimals are read back

The decimal that a double is written with is searched for, and it is tested before
it is taken. So it is read back in any case, unless no candidate passes the test;
then the exact expansion is taken, and that is read back because a double is
nearest to its own value.

The other question is how many places are left behind the point, since without
any an integer is written. If a double is an integer there are none. A candidate
is a multiple of a power of ten, and if that is below one then the integer itself is
such a multiple, so that it is tested first and passes. If a double is no integer
then there are places, because no double between two integers is nearest to one
of them: up to `2^53` the integers are doubles, and from there on the doubles are
integers.
-/

namespace CanCatalog.Binary64

variable {x : Binary64} {m : Nat} {position : Int}

/-- **A decimal that the double is read from.** -/
def ReadFrom (x : Binary64) (d : Decimal) : Prop :=
  ofDecimal x.negative d.digits (-d.places) = x

/-! ## What is found -/

/-- A candidate has been tested. -/
theorem ofDecimal_of_candidate? (h : candidate? x position = some m) :
    ofDecimal x.negative m position = x := by
  unfold candidate? at h
  dsimp only at h
  split at h
  · next hlow =>
    split at h
    · next hhigh =>
      obtain rfl := Option.some.inj h
      exact beq_iff_eq.1 (Bool.and_eq_true _ _ ▸ hhigh).1
    · obtain rfl := Option.some.inj h
      exact beq_iff_eq.1 hlow
  · obtain ⟨hhigh, hm⟩ := Option.ite_none_right_eq_some.1 h
    obtain rfl := Option.some.inj hm
    exact beq_iff_eq.1 hhigh

/-- **What is read with a power of ten is read without it**, when the power has
been written out. -/
theorem readFrom_ofScientific (h : ofDecimal x.negative m position = x) :
    x.ReadFrom (Decimal.ofScientific m position) :=
  (ofDecimal_congr (Decimal.value_ofScientific m position) _).trans h

/-- The exact expansion counts in a power of ten of which a unit is so many. -/
theorem exists_exactDecimal_eq :
    ∃ factor places : Nat, factor * one = 10 ^ places
      ∧ ∀ x : Binary64, x.exactDecimal
        = Decimal.ofScientific (x.magnitude * factor) (-places) :=
  ⟨Nat.pow 5 1074, 1074, by decide +kernel, fun _ => rfl⟩

/-- **A double is nearest to its own value**, in units of any power of ten below
one. -/
theorem ofDecimal_magnitude (hx : x.isFinite = true) {digits places : Nat}
    (h : digits * one = x.magnitude * 10 ^ places) :
    ofDecimal x.negative digits (-places) = x := by
  rw [ofDecimal_eq_roundDecimal]
  refine round_magnitude (isNaN_of_isFinite hx) (Nat.pow_pos (by decide)) ?_
  rw [Int.toNat_neg_natCast, Nat.pow_zero, Nat.mul_one, Int.neg_neg,
    Int.toNat_natCast, h]

/-- A double is read from its exact expansion. -/
theorem readFrom_exactDecimal (hx : x.isFinite = true) :
    x.ReadFrom x.exactDecimal := by
  obtain ⟨factor, places, hpower, hexact⟩ := exists_exactDecimal_eq
  rw [hexact]
  refine readFrom_ofScientific (ofDecimal_magnitude hx ?_)
  rw [Nat.mul_assoc, hpower]

/-- The shortest decimal has been found or is the exact expansion. -/
theorem shortest_cases (x : Binary64) :
    (∃ m position, candidate? x position = some m
        ∧ x.shortest = Decimal.ofScientific m position)
      ∨ x.shortest = x.exactDecimal := by
  unfold shortest
  cases hfound : (List.range 17).findSome? fun n => withDigits? x (n + 1) with
  | none => exact .inr rfl
  | some d =>
    obtain ⟨n, -, hd⟩ := List.exists_of_findSome?_eq_some hfound
    obtain ⟨m, hm, rfl⟩ := Option.map_eq_some_iff.1 hd
    exact .inl ⟨m, _, hm, rfl⟩

/-- **A double is read from its shortest decimal.** -/
theorem readFrom_shortest (hx : x.isFinite = true) : x.ReadFrom x.shortest := by
  rcases shortest_cases x with ⟨m, position, hm, heq⟩ | heq
  · rw [heq]
    exact readFrom_ofScientific (ofDecimal_of_candidate? hm)
  · rw [heq]
    exact readFrom_exactDecimal hx

/-! ## Integers -/

/-- **Doubles from `2^53` on are integers.** -/
theorem one_dvd_codeMagnitude {c : Nat}
    (h : 0x20000000000000 * one ≤ codeMagnitude c) : one ∣ codeMagnitude c := by
  obtain ⟨k, hone⟩ : ∃ k, one = 1 <<< k := ⟨_, rfl⟩
  obtain ⟨p, s, rfl, hs, hp⟩ := exists_significand c
  rw [codeMagnitude_add (Nat.le_of_lt hs) hp, hone, Nat.shiftLeft_eq,
    Nat.shiftLeft_eq, Nat.one_mul] at *
  -- the significand is too short for a smaller exponent
  have hexponent : k ≤ p := by
    refine Nat.le_of_not_lt fun hlt => Nat.not_lt.2 h ?_
    exact Nat.mul_lt_mul_of_lt_of_le hs
      (Nat.pow_le_pow_right (by decide) (Nat.le_of_lt hlt)) (Nat.two_pow_pos k)
  exact Nat.dvd_mul_left_of_dvd (Nat.pow_dvd_pow 2 hexponent) s

/-- A larger integer is not rounded to a smaller magnitude. -/
theorem magnitude_round_mono (negative negative' : Bool) {n k : Nat}
    (h : n ≤ k) :
    (round negative n 1).magnitude ≤ (round negative' k 1).magnitude :=
  codeMagnitude_strictMono.monotone
    (codeNearest_mono (Nat.mul_le_mul_right one h) 1)

/-- Integers up to `2^53` are not changed by rounding. -/
theorem magnitude_round_of_le (negative : Bool) {n : Nat} (h : n ≤ 2 ^ 53) :
    (round negative n 1).magnitude = n * one := by
  have hscaled := scaled_ofInt_of_natAbs_le (v := n) h
  have habs := congrArg Int.natAbs hscaled
  rw [natAbs_scaled, Int.natAbs_mul, Int.natAbs_natCast, Int.natAbs_natCast] at habs
  exact habs

/-- **An integer is rounded to an integer.** -/
theorem one_dvd_magnitude_round (negative : Bool) (n : Nat) :
    one ∣ (round negative n 1).magnitude := by
  rcases Nat.le_total n (2 ^ 53) with hsmall | hlarge
  · rw [magnitude_round_of_le negative hsmall]
    exact Nat.dvd_mul_left one n
  · refine one_dvd_codeMagnitude ?_
    have hmono := magnitude_round_mono negative negative hlarge
    rwa [magnitude_round_of_le negative (Nat.le_refl _)] at hmono

/-- **An integer is its own candidate** among the multiples of a unit that is not
above one. -/
theorem candidate?_of_dvd (hx : x.isFinite = true) {n : Nat}
    (hn : x.magnitude = n * one) (places : Nat) :
    candidate? x (-places) = some (n * 10 ^ places) := by
  have hnum : x.magnitude * Nat.pow 10 (- -(places : Int)).toNat
      = n * 10 ^ places * one := by
    rw [hn, Int.neg_neg, Int.toNat_natCast, Nat.mul_right_comm]
    rfl
  have hden : one * Nat.pow 10 (-(places : Int)).toNat = one := by
    rw [Int.toNat_neg_natCast]
    exact Nat.mul_one one
  have hread : ofDecimal x.negative (n * 10 ^ places) (-places) = x :=
    ofDecimal_magnitude hx (by rw [hn, Nat.mul_right_comm])
  unfold candidate?
  rw [hnum, hden]
  dsimp only
  rw [Nat.mul_div_cancel _ one_pos, Nat.mul_mod_left, if_pos (beq_iff_eq.2 hread),
    if_neg]
  intro hnearer
  exact Nat.not_le.2 one_pos
    (of_decide_eq_true (Bool.and_eq_true _ _ ▸ hnearer).2)

/-- **An integer keeps no places.** -/
theorem places_shortest_of_dvd (hx : x.isFinite = true)
    (h : one ∣ x.magnitude) : x.shortest.reduced.places = 0 := by
  obtain ⟨n, hn⟩ := h
  rw [Nat.mul_comm] at hn
  rcases shortest_cases x with ⟨m, position, hm, heq⟩ | heq
  · rw [heq]
    obtain ⟨k, rfl | rfl⟩ := position.eq_nat_or_neg
    · exact Decimal.places_reduced_ofScientific m k
    · obtain rfl := Option.some.inj (hm.symm.trans (candidate?_of_dvd hx hn k))
      exact Decimal.places_reduced_mul_pow n k
  · obtain ⟨factor, k, hpower, hexact⟩ := exists_exactDecimal_eq
    rw [heq, hexact, hn, Nat.mul_assoc, Nat.mul_comm one, hpower]
    exact Decimal.places_reduced_mul_pow n k

/-- **Without places an integer is written**, and the double is nearest to
it. -/
theorem round_shortest (hx : x.isFinite = true)
    (h : x.shortest.reduced.places = 0) :
    round x.negative x.shortest.reduced.digits 1 = x := by
  have hread := (ofDecimal_congr x.shortest.value_reduced x.negative).trans
    (readFrom_shortest hx)
  rwa [h, Int.natCast_zero, Int.neg_zero, ofDecimal_zero] at hread

/-- **No places are kept exactly by integers.** -/
theorem places_shortest_eq_zero_iff (hx : x.isFinite = true) :
    x.shortest.reduced.places = 0 ↔ one ∣ x.magnitude := by
  refine ⟨fun h => ?_, places_shortest_of_dvd hx⟩
  have hdvd := one_dvd_magnitude_round x.negative x.shortest.reduced.digits
  rwa [round_shortest hx h] at hdvd

end CanCatalog.Binary64
