import CanCatalog.Proofs.Number.Literal

/-!
# Integers are read back

An integer is written with its digits and, if it is negative, a minus sign
before them. Reading such a text gives the integer again, in each of the three
places where integers stand: as a number of 32 bits, as a number of 16 bits and
as a literal, which may be negative and has 64 bits. The least of these has a
magnitude that no positive one has; it is read with its sign and is not beyond
the limit.

Besides digits and the minus sign nothing occurs in the text of an integer. So
it is part of one word, and it can be set between brackets and separators and
found there again.
-/

namespace CanCatalog

/-! ## The characters of an integer -/

namespace Numeral

/-- **The characters that integers are written with.** -/
def isIntegerChar (c : Char) : Bool := c.isDigit || c == '-'

/-- A digit has one of ten numbers. -/
theorem toNat_bounds_of_isDigit {c : Char} (h : c.isDigit = true) :
    48 ≤ c.toNat ∧ c.toNat ≤ 57 := by
  simp only [Char.isDigit, Bool.and_eq_true, decide_eq_true_eq] at h
  exact ⟨UInt32.le_iff_toNat_le.1 h.1, UInt32.le_iff_toNat_le.1 h.2⟩

/-- No character of an integer is white space. -/
theorem isBlank_of_isIntegerChar {c : Char} (h : isIntegerChar c = true) :
    Text.isBlank c = false := by
  rcases Bool.or_eq_true_iff.1 h with h | h
  · obtain ⟨hlow, hhigh⟩ := toNat_bounds_of_isDigit h
    simp only [Text.isBlank, Text.blankRanges, List.any_cons, List.any_nil,
      Bool.or_false, Bool.or_eq_false_iff, decide_eq_false_iff_not]
    omega
  · rw [beq_iff_eq.1 h]
    decide

/-- A character of an integer is none that integers are not written with. -/
theorem beq_eq_false_of_isIntegerChar {c d : Char}
    (h : isIntegerChar c = true) (hd : isIntegerChar d = false) :
    (c == d) = false :=
  beq_eq_false_iff_ne.2 fun heq => Bool.false_ne_true
    (hd.symm.trans (heq ▸ h))

/-- A natural number is written with digits. -/
theorem isDigit_of_mem_toDigits {n : Nat} {c : Char}
    (h : c ∈ Nat.toDigits 10 n) : c.isDigit = true :=
  Nat.isDigit_of_mem_toDigits (by decide) (Nat.le_refl 10) h

theorem isIntegerChar_of_mem_toDigits {n : Nat} {c : Char}
    (h : c ∈ Nat.toDigits 10 n) : isIntegerChar c = true := by
  rw [isIntegerChar, isDigit_of_mem_toDigits h, Bool.true_or]

/-- **An integer is written with the characters of integers.** -/
theorem isIntegerChar_of_mem_integerText {v : Int} {c : Char}
    (h : c ∈ Number.integerText v) : isIntegerChar c = true := by
  unfold Number.integerText at h
  split at h
  · rcases List.mem_cons.1 h with rfl | h
    · rfl
    · exact isIntegerChar_of_mem_toDigits h
  · exact isIntegerChar_of_mem_toDigits h

/-- Text that is written as integers are is without white space. -/
theorem isSolid_of_isIntegerChar {text : List Char}
    (h : ∀ c ∈ text, isIntegerChar c = true) : Text.IsSolid text :=
  fun c hc => isBlank_of_isIntegerChar (h c hc)

/-- The digits of a natural number are a word. -/
theorem isWord_toDigits (n : Nat) : Text.IsWord (Nat.toDigits 10 n) :=
  ⟨Nat.toDigits_ne_nil,
    isSolid_of_isIntegerChar fun _ => isIntegerChar_of_mem_toDigits⟩

/-! ## Natural numbers -/

/-- **The digits of a number have its value.** -/
theorem digits?_toDigits (n : Nat) : digits? (Nat.toDigits 10 n) = some n := by
  have hdigits : (Nat.toDigits 10 n).all Char.isDigit = true :=
    List.all_eq_true.2 fun _ => isDigit_of_mem_toDigits
  have hne : (Nat.toDigits 10 n).isEmpty = false :=
    List.isEmpty_eq_false_iff.2 Nat.toDigits_ne_nil
  unfold digits?
  rw [hdigits, hne, if_pos (by decide),
    Nat.ofDigitChars_toDigits (by decide) (Nat.le_refl 10)]

/-- What is no digit, such as a sign, is not at the front of digits. -/
theorem toDigits_ne_cons {n : Nat} {d : Char} {rest : List Char}
    (hd : d.isDigit = false) : Nat.toDigits 10 n ≠ d :: rest := by
  intro h
  have hmem : d ∈ Nat.toDigits 10 n := h ▸ List.mem_cons_self
  exact Bool.false_ne_true (hd.symm.trans (isDigit_of_mem_toDigits hmem))

theorem natural?_toDigits (n : Nat) :
    natural? (Nat.toDigits 10 n) = some n := by
  unfold natural?
  split
  · next heq => exact absurd heq (toDigits_ne_cons (by decide))
  · exact digits?_toDigits n

/-- **Numbers of 32 bits are read back.** -/
theorem uint32?_toDigits (v : UInt32) :
    uint32? (Nat.toDigits 10 v.toNat) = some v := by
  rw [uint32?, natural?_toDigits, Option.bind_some, if_pos v.toNat_lt,
    UInt32.ofNat_toNat]

/-- **Numbers of 16 bits are read back.** -/
theorem uint16?_toDigits (v : UInt16) :
    uint16? (Nat.toDigits 10 v.toNat) = some v := by
  rw [uint16?, natural?_toDigits, Option.bind_some, if_pos v.toNat_lt,
    UInt16.ofNat_toNat]

/-! ## Integers with a sign -/

/-- **The text of an integer is its sign and its magnitude.** -/
theorem splitSign_integerText (v : Int) :
    splitSign (Number.integerText v)
      = (decide (v < 0), Nat.toDigits 10 v.natAbs) := by
  unfold Number.integerText
  split
  · next hneg =>
    rw [decide_eq_true hneg]
    rfl
  · next hpos =>
    rw [decide_eq_false hpos]
    unfold splitSign
    split
    · next heq => exact absurd heq (toDigits_ne_cons (by decide))
    · next heq => exact absurd heq (toDigits_ne_cons (by decide))
    · rfl

/-- **Different integers have different texts.** -/
theorem integerText_injective : Function.Injective Number.integerText := by
  intro v w h
  have hsplit := congrArg splitSign h
  rw [splitSign_integerText, splitSign_integerText] at hsplit
  obtain ⟨hsign, hdigits⟩ := Prod.mk.inj hsplit
  have hsign := decide_eq_decide.1 hsign
  have habs : v.natAbs = w.natAbs := by
    have hread := digits?_toDigits v.natAbs
    rw [hdigits, digits?_toDigits] at hread
    exact (Option.some.inj hread).symm
  omega

/-- **An integer is its sign and its magnitude**, down to the least one. -/
theorem ofInteger_natAbs (v : Int64) :
    ofInteger (decide (v.toInt < 0)) v.toInt.natAbs = .integer v := by
  have hvalue : (if decide (v.toInt < 0) = true then -(v.toInt.natAbs : Int)
      else (v.toInt.natAbs : Int)) = v.toInt := by
    split
    · next h =>
      have hneg := of_decide_eq_true h
      omega
    · next h =>
      have hpos := of_decide_eq_false (Bool.eq_false_iff.2 h)
      omega
  have hbounds : Int64.minValue.toInt ≤ v.toInt
      ∧ v.toInt ≤ Int64.maxValue.toInt :=
    ⟨v.minValue_le_toInt, v.toInt_le⟩
  unfold ofInteger
  dsimp only
  rw [hvalue, if_pos hbounds, Int64.ofInt_toInt]

end Numeral

/-- **Integers are read back from a literal.** -/
theorem Number.ofLiteral?_integerText (v : Int64) :
    Number.ofLiteral? (Number.integerText v.toInt) = some (.integer v) := by
  have hsolid : Text.IsSolid (Number.integerText v.toInt) :=
    Numeral.isSolid_of_isIntegerChar
      fun _ => Numeral.isIntegerChar_of_mem_integerText
  have hsplit := Numeral.splitSign_integerText v.toInt
  rw [← hsolid.isTrimmed.trim_eq] at hsplit
  rw [ofLiteral?_of_digits hsplit
    (Numeral.digits?_eq_some_iff.1 (Numeral.digits?_toDigits _)),
    Numeral.ofInteger_natAbs]

example : Number.ofLiteral? (Number.integerText Int64.minValue.toInt)
    = some (.integer Int64.minValue) := by decide +kernel

end CanCatalog
