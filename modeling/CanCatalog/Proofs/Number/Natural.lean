import CanCatalog.Proofs.Number.Literal

/-!
# Natural numerals

Where a count or an identifier is meant, no sign has a meaning and none is
needed; but a plus is let pass, one of them, and nothing else besides digits. The
numeral is read exactly, however long it is and whatever zeros it begins with,
and only then is it held against the width of its field. So a field takes just
the numerals of the numbers that it can hold.
-/

namespace CanCatalog.Numeral

/-- **A numeral of a natural number**: digits, after at most one plus sign. -/
inductive IsNatural : List Char → Nat → Prop where
  /-- Digits alone. -/
  | bare {digits : List Char} {n : Nat} (isDigits : Digits digits n) :
    IsNatural digits n
  /-- Digits behind a plus sign. -/
  | plus {digits : List Char} {n : Nat} (isDigits : Digits digits n) :
    IsNatural ('+' :: digits) n

/-- A plus sign is no digit. -/
theorem Digits.not_plus {digits : List Char} {n : Nat} :
    ¬ Digits ('+' :: digits) n :=
  fun h => h.head?_ne (by decide) rfl

/-- **Natural numerals are recognized.** -/
theorem natural?_eq_some_iff {token : List Char} {n : Nat} :
    natural? token = some n ↔ IsNatural token n := by
  unfold natural?
  split
  · next rest =>
    rw [digits?_eq_some_iff]
    constructor
    · exact .plus
    · intro h
      cases h with
      | bare hdigits => exact absurd hdigits Digits.not_plus
      | plus hdigits => exact hdigits
  · next hplus =>
    rw [digits?_eq_some_iff]
    constructor
    · exact .bare
    · intro h
      cases h with
      | bare hdigits => exact hdigits
      | plus hdigits => exact absurd rfl (hplus _)

/-- What is read exactly and then held against a width is a numeral of a number
that has the width. -/
theorem natural?_bind_eq_some_iff {α : Type} {token : List Char} {size : Nat}
    {ofNat : Nat → α} {v : α} :
    ((natural? token).bind fun n =>
        if n < size then some (ofNat n) else none) = some v
      ↔ ∃ n, IsNatural token n ∧ n < size ∧ ofNat n = v := by
  simp only [Option.bind_eq_some_iff, Option.ite_none_right_eq_some,
    natural?_eq_some_iff, Option.some.injEq]

/-- **A field of 32 bits takes the numerals of its numbers**, and no others. -/
theorem uint32?_eq_some_iff {token : List Char} {v : UInt32} :
    uint32? token = some v ↔ IsNatural token v.toNat := by
  rw [uint32?, natural?_bind_eq_some_iff]
  constructor
  · rintro ⟨n, hn, hlt, rfl⟩
    rwa [UInt32.toNat_ofNat_of_lt' hlt]
  · exact fun h => ⟨v.toNat, h, v.toNat_lt, UInt32.ofNat_toNat⟩

/-- **A field of 16 bits takes the numerals of its numbers**, and no others. -/
theorem uint16?_eq_some_iff {token : List Char} {v : UInt16} :
    uint16? token = some v ↔ IsNatural token v.toNat := by
  rw [uint16?, natural?_bind_eq_some_iff]
  constructor
  · rintro ⟨n, hn, hlt, rfl⟩
    rwa [UInt16.toNat_ofNat_of_lt' hlt]
  · exact fun h => ⟨v.toNat, h, v.toNat_lt, UInt16.ofNat_toNat⟩

/-- A field of 32 bits refuses what is no numeral of a number below `2^32`. -/
theorem uint32?_eq_none_iff {token : List Char} :
    uint32? token = none ↔ ∀ v : UInt32, ¬ IsNatural token v.toNat := by
  rw [Option.eq_none_iff_forall_ne_some]
  exact forall_congr' fun v => not_congr uint32?_eq_some_iff

/-- A field of 16 bits refuses what is no numeral of a number below `2^16`. -/
theorem uint16?_eq_none_iff {token : List Char} :
    uint16? token = none ↔ ∀ v : UInt16, ¬ IsNatural token v.toNat := by
  rw [Option.eq_none_iff_forall_ne_some]
  exact forall_congr' fun v => not_congr uint16?_eq_some_iff

end CanCatalog.Numeral
