import CanCatalog.Proofs.Number.Limits
import CanCatalog.Proofs.Statement.Parts
import Mathlib.Data.List.Forall2

/-!
# Positions of bits, and what is wrong with others

Of a position only the two parts in front count. They are numerals of numbers
that 16 bits hold, and the second one is not zero. So a position is a property
of its parts (`IsPosition`), and what keeps the parts keeps the position: the
two separators can be exchanged for each other, and behind a further separator
anything may stand.

A word that is no position is refused for the first of four reasons
(`FirstFailing`). This is decided by the parts as well. Only what is quoted is
the word as it was written, separators and all, because a reader of the fault
looks for it in the text.
-/

namespace CanCatalog

/-! ## Parts -/

namespace Text

variable {separates : Char → Bool} {text first second : List Char}

/-- A text that has parts has a separator. -/
theorem Parts.not_clear (h : Parts separates text first second) :
    ¬ ∀ c ∈ text, separates c = false := by
  intro hclear
  cases h with
  | two _ hseparator _ =>
    exact Bool.noConfusion (hseparator.symm.trans (hclear _ (by simp)))
  | more _ hseparator _ _ =>
    exact Bool.noConfusion (hseparator.symm.trans (hclear _ (by simp)))

/-- **The first two parts are the first two pieces.** -/
theorem parts_iff :
    Parts separates text first second
      ↔ ∃ more, text.splitOnP separates = first :: second :: more := by
  constructor
  · exact Parts.splitOnP_eq
  · rintro ⟨more, hsplit⟩
    rcases clear_or_exists_parts separates text with
      hclear | ⟨first', second', hparts⟩
    · rw [List.splitOnP_eq_singleton hclear] at hsplit
      exact absurd (List.cons.inj hsplit).2 nofun
    · obtain ⟨more', hsplit'⟩ := hparts.splitOnP_eq
      obtain ⟨rfl, htail⟩ := List.cons.inj (hsplit.symm.trans hsplit')
      obtain ⟨rfl, -⟩ := List.cons.inj htail
      exact hparts

/-- **What a further separator sets apart is not among the first parts.** -/
theorem Parts.append (h : Parts separates text first second) {next : Char}
    (hnext : separates next = true) (rest : List Char) :
    Parts separates (text ++ next :: rest) first second := by
  cases h with
  | two hfirst hseparator hsecond =>
    rw [List.append_assoc, List.cons_append]
    exact .more hfirst hseparator hsecond hnext
  | more hfirst hseparator hsecond hinner =>
    rw [List.append_assoc, List.cons_append, List.append_assoc, List.cons_append]
    exact .more hfirst hseparator hsecond hinner

/-- One character is exchanged for another: both are separators, or nothing is
changed. -/
def Exchanged (separates : Char → Bool) (c d : Char) : Prop :=
  c = d ∨ separates c = true ∧ separates d = true

/-- **Exchanging separators keeps the pieces.** -/
theorem splitOnP_of_exchanged {other : List Char}
    (h : List.Forall₂ (Exchanged separates) text other) :
    other.splitOnP separates = text.splitOnP separates := by
  induction h with
  | nil => rfl
  | @cons c d text other hcd _ ih =>
    rw [List.splitOnP_cons_eq_if_modifyHead,
      List.splitOnP_cons_eq_if_modifyHead, ih]
    rcases hcd with rfl | ⟨hc, hd⟩
    · rfl
    · rw [if_pos hc, if_pos hd]

/-- Exchanging separators keeps the parts. -/
theorem parts_of_exchanged {other : List Char}
    (h : List.Forall₂ (Exchanged separates) text other) :
    Parts separates other first second ↔ Parts separates text first second := by
  rw [parts_iff, parts_iff, splitOnP_of_exchanged h]

/-- A text is free of separators if it has no two parts. -/
theorem clear_iff :
    (∀ c ∈ text, separates c = false)
      ↔ ∀ first second, ¬ Parts separates text first second := by
  constructor
  · exact fun hclear _ _ h => h.not_clear hclear
  · intro h
    rcases clear_or_exists_parts separates text with
      hclear | ⟨first, second, hparts⟩
    · exact hclear
    · exact absurd hparts (h first second)

end Text

namespace Statement

open Numeral (IsNatural IsNumeralOf isNumeralOf_iff)

variable {token : List Char}

/-! ## Positions -/

/-- **A position of bits**: the bit and the number of bits are the first two
parts of the word. -/
def IsPosition (token : List Char) (endBit length : Nat) : Prop :=
  ∃ first second, Text.Parts isBitSeparator token first second
    ∧ (IsNumeralOf first endBit ∧ endBit ≤ 65535)
    ∧ IsNumeralOf second length ∧ 1 ≤ length ∧ length ≤ 65535

/-- **The first check that a word fails** as a position of bits. -/
inductive FirstFailing (token : List Char) : BitFieldFault → Prop where
  /-- There are no two parts. -/
  | noSeparator (absent : ∀ c ∈ token, isBitSeparator c = false) :
    FirstFailing token .noSeparator
  /-- The first part is no numeral, or its number is too large. -/
  | endBit {first second : List Char}
    (parts : Text.Parts isBitSeparator token first second)
    (bad : ∀ n, IsNumeralOf first n → 65535 < n) :
    FirstFailing token .endBit
  /-- The second part is no numeral, or its number is too large. -/
  | length {first second : List Char} {n : Nat}
    (parts : Text.Parts isBitSeparator token first second)
    (endBit_read : IsNumeralOf first n ∧ n ≤ 65535)
    (bad : ∀ m, IsNumeralOf second m → 65535 < m) :
    FirstFailing token .length
  /-- The number of bits is zero. -/
  | empty {first second : List Char} {n : Nat}
    (parts : Text.Parts isBitSeparator token first second)
    (endBit_read : IsNumeralOf first n ∧ n ≤ 65535)
    (length_read : IsNumeralOf second 0) :
    FirstFailing token .empty

/-- A numeral of a number of 16 bits is one up to the limit. -/
theorem isNatural_toNat_iff {v : UInt16} :
    IsNatural token v.toNat ↔ IsNumeralOf token v.toNat ∧ v.toNat ≤ 65535 := by
  rw [isNumeralOf_iff]
  exact (and_iff_left (Nat.le_of_lt_succ v.toNat_lt)).symm

/-- Every number up to the limit is one of 16 bits. -/
theorem exists_toNat_eq {n : Nat} (h : n ≤ 65535) :
    ∃ v : UInt16, v.toNat = n :=
  ⟨UInt16.ofNat n, UInt16.toNat_ofNat_of_lt' (Nat.lt_succ_of_le h)⟩

/-- What is no number of 16 bits is too large if it is a number. -/
theorem forall_not_isNatural_iff :
    (∀ v : UInt16, ¬ IsNatural token v.toNat)
      ↔ ∀ n, IsNumeralOf token n → 65535 < n := by
  constructor
  · intro h n hn
    refine Nat.lt_of_not_le fun hle => ?_
    obtain ⟨v, rfl⟩ := exists_toNat_eq hle
    exact h v (isNatural_toNat_iff.2 ⟨hn, hle⟩)
  · intro h v hv
    obtain ⟨hn, hle⟩ := isNatural_toNat_iff.1 hv
    exact Nat.not_lt.2 hle (h _ hn)

/-- **What is taken as a position is one.** -/
theorem bitField_eq_ok_iff {endBit length : UInt16} :
    bitField token = .ok (endBit, length)
      ↔ IsPosition token endBit.toNat length.toNat := by
  rw [bitField_eq_iff]
  constructor
  · intro h
    cases h with
    | bits parts endBit_read length_read nonempty =>
      obtain ⟨hlength, hle⟩ := isNatural_toNat_iff.1 length_read
      have hpos : length.toNat ≠ 0 := fun h => nonempty (UInt16.toNat_inj.1 h)
      exact ⟨_, _, parts, isNatural_toNat_iff.1 endBit_read, hlength,
        Nat.one_le_iff_ne_zero.2 hpos, hle⟩
  · rintro ⟨first, second, hparts, hend, hlength, hpos, hle⟩
    refine .bits hparts (isNatural_toNat_iff.2 hend)
      (isNatural_toNat_iff.2 ⟨hlength, hle⟩) ?_
    rintro rfl
    exact absurd hpos (by decide)

/-- **What is refused as a position is refused for the first reason.** -/
theorem bitField_eq_error_iff {fault : Fault} :
    bitField token = .error fault
      ↔ ∃ why, FirstFailing token why
        ∧ fault = .badBitField (String.ofList token) why := by
  rw [bitField_eq_iff]
  constructor
  · intro h
    cases h with
    | noSeparator absent => exact ⟨_, .noSeparator absent, rfl⟩
    | badEndBit parts bad =>
      exact ⟨_, .endBit parts (forall_not_isNatural_iff.1 bad), rfl⟩
    | badLength parts endBit_read bad =>
      exact ⟨_, .length parts (isNatural_toNat_iff.1 endBit_read)
        (forall_not_isNatural_iff.1 bad), rfl⟩
    | empty parts endBit_read length_read =>
      exact ⟨_, .empty parts (isNatural_toNat_iff.1 endBit_read)
        (isNumeralOf_iff.2 length_read), rfl⟩
  · rintro ⟨why, h, rfl⟩
    cases h with
    | noSeparator absent => exact .noSeparator absent
    | endBit parts bad =>
      exact .badEndBit parts (forall_not_isNatural_iff.2 bad)
    | length parts endBit_read bad =>
      obtain ⟨v, rfl⟩ := exists_toNat_eq endBit_read.2
      exact .badLength parts (isNatural_toNat_iff.2 endBit_read)
        (forall_not_isNatural_iff.2 bad)
    | empty parts endBit_read length_read =>
      obtain ⟨v, rfl⟩ := exists_toNat_eq endBit_read.2
      exact .empty parts (isNatural_toNat_iff.2 endBit_read)
        (isNumeralOf_iff.1 length_read)

/-! ## What keeps a position -/

/-- **Exchanging separators keeps a position.** -/
theorem isPosition_of_exchanged {other : List Char} {endBit length : Nat}
    (h : List.Forall₂ (Text.Exchanged isBitSeparator) token other) :
    IsPosition other endBit length ↔ IsPosition token endBit length := by
  unfold IsPosition
  simp only [Text.parts_of_exchanged h]

/-- What is wrong with a word is decided by its parts. -/
theorem FirstFailing.of_parts {other : List Char} {why : BitFieldFault}
    (h : FirstFailing token why)
    (hparts : ∀ first second, Text.Parts isBitSeparator other first second
      ↔ Text.Parts isBitSeparator token first second) :
    FirstFailing other why := by
  cases h with
  | noSeparator absent =>
    refine .noSeparator (Text.clear_iff.2 fun first second h => ?_)
    exact Text.clear_iff.1 absent _ _ ((hparts first second).1 h)
  | endBit parts bad => exact .endBit ((hparts _ _).2 parts) bad
  | length parts endBit_read bad =>
    exact .length ((hparts _ _).2 parts) endBit_read bad
  | empty parts endBit_read length_read =>
    exact .empty ((hparts _ _).2 parts) endBit_read length_read

/-- **More behind a position keeps it**, if a separator comes first. -/
theorem IsPosition.append {endBit length : Nat}
    (h : IsPosition token endBit length) {separator : Char}
    (hseparator : isBitSeparator separator = true) (rest : List Char) :
    IsPosition (token ++ separator :: rest) endBit length := by
  obtain ⟨first, second, hparts, hnumbers⟩ := h
  exact ⟨first, second, hparts.append hseparator rest, hnumbers⟩

/-- **Positions of bits are accepted by their grammar**, and what is no position
is refused in the line where it stands, quoted as it was written, for the first
check that it fails. So it is of no consequence which separators stand in a
word, whether it is accepted or not; and a word that is accepted can be followed
by a separator and anything else. -/
theorem positions_are_exact (number : Nat) (token : List Char) :
    (∀ endBit length : Nat,
      (∃ e l : UInt16, (bitField token).mapError (ReadError.atLine number)
          = .ok (e, l) ∧ e.toNat = endBit ∧ l.toNat = length)
        ↔ IsPosition token endBit length)
    ∧ (∀ e, (bitField token).mapError (ReadError.atLine number) = .error e
        ↔ ∃ why, FirstFailing token why
          ∧ e = .atLine number (.badBitField (String.ofList token) why))
    ∧ (∀ other, List.Forall₂ (Text.Exchanged isBitSeparator) token other →
        (∀ bits, bitField other = .ok bits ↔ bitField token = .ok bits)
        ∧ ∀ why, FirstFailing other why ↔ FirstFailing token why)
    ∧ ∀ bits separator rest, bitField token = .ok bits →
        isBitSeparator separator = true →
        bitField (token ++ separator :: rest) = .ok bits := by
  refine ⟨fun endBit length => ?_, fun e => ?_, fun other hother => ⟨?_, ?_⟩, ?_⟩
  · simp only [Except.mapError_eq_ok_iff, bitField_eq_ok_iff]
    constructor
    · rintro ⟨e, l, hposition, rfl, rfl⟩
      exact hposition
    · intro h
      have ⟨_, _, _, ⟨_, hend⟩, _, _, hlength⟩ := h
      obtain ⟨e, rfl⟩ := exists_toNat_eq hend
      obtain ⟨l, rfl⟩ := exists_toNat_eq hlength
      exact ⟨e, l, h, rfl, rfl⟩
  · simp only [Except.mapError_eq_error_iff, bitField_eq_error_iff]
    constructor
    · rintro ⟨_, ⟨why, hwhy, rfl⟩, rfl⟩
      exact ⟨why, hwhy, rfl⟩
    · rintro ⟨why, hwhy, rfl⟩
      exact ⟨_, ⟨why, hwhy, rfl⟩, rfl⟩
  · rintro ⟨e, l⟩
    rw [bitField_eq_ok_iff, bitField_eq_ok_iff, isPosition_of_exchanged hother]
  · have hparts : ∀ first second, Text.Parts isBitSeparator other first second
        ↔ Text.Parts isBitSeparator token first second :=
      fun first second => Text.parts_of_exchanged hother
    exact fun why => ⟨fun h => h.of_parts fun first second =>
      (hparts first second).symm, fun h => h.of_parts hparts⟩
  · rintro ⟨e, l⟩ separator rest hread hseparator
    exact bitField_eq_ok_iff.2
      ((bitField_eq_ok_iff.1 hread).append hseparator rest)

end Statement

end CanCatalog
