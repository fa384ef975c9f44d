import CanCatalog.Proofs.Reading.Origin

/-!
# The lowest bit of a signal

A signal is described by its highest bit and by the number of its bits, and its
lowest bit is computed from these. The computation is done in large numbers and
its result is cut down to a position of 16 bits, without a check that it fits.
It does not always fit: an empty signal at the last position of all would begin
at bit 65536, and the cut makes this bit 0.

That is the only case (`toNat_eq_iff_of_startBit?`), and it is met by no signal
that was read. A position of bits without bits is refused where it is read, and
from there on no reading changes the position of a signal. So what is true of
positions when their word is looked at is true of the signals of a catalogue, and
their lowest bit is exact.
-/

namespace CanCatalog

namespace Signal

variable {endBit length v : UInt16}

/-- **There is a lowest bit if the signal does not reach below bit 0.** -/
theorem exists_startBit?_iff :
    (∃ v, startBit? endBit length = some v)
      ↔ length.toNat ≤ endBit.toNat + 1 := by
  unfold startBit?
  split
  · next hle => exact iff_of_true ⟨_, rfl⟩ hle
  · next hlt => exact iff_of_false nofun hlt

/-- There is none if the signal does. -/
theorem startBit?_eq_none_iff :
    startBit? endBit length = none ↔ endBit.toNat + 1 < length.toNat := by
  rw [← Nat.not_le, ← exists_startBit?_iff, Option.eq_none_iff_forall_ne_some,
    not_exists]

/-- **The lowest bit is cut down to 16 bits.** -/
theorem toNat_of_startBit? (h : startBit? endBit length = some v) :
    v.toNat = (endBit.toNat + 1 - length.toNat) % 65536 := by
  unfold startBit? at h
  split at h
  · obtain rfl := Option.some.inj h
    exact UInt16.toNat_ofNat'
  · exact absurd h nofun

/-- **The cut does harm in one case only**: a signal at the last position that has
no bits. -/
theorem toNat_eq_iff_of_startBit? (h : startBit? endBit length = some v) :
    v.toNat = endBit.toNat + 1 - length.toNat
      ↔ ¬ (endBit = 65535 ∧ length = 0) := by
  have hend : endBit.toNat < 65536 := endBit.toNat_lt
  have hbits : (endBit = 65535 ∧ length = 0)
      ↔ endBit.toNat = 65535 ∧ length.toNat = 0 :=
    and_congr UInt16.toNat_inj.symm UInt16.toNat_inj.symm
  rw [toNat_of_startBit? h, hbits]
  omega

/-- **The lowest bit of a signal that has bits is exact**, and is not above the
highest one. -/
theorem add_length_of_startBit? (h : startBit? endBit length = some v)
    (hlength : 1 ≤ length.toNat) :
    v.toNat + length.toNat = endBit.toNat + 1 ∧ v.toNat ≤ endBit.toNat := by
  have hle := exists_startBit?_iff.1 ⟨v, h⟩
  have hexact : v.toNat = endBit.toNat + 1 - length.toNat := by
    refine (toNat_eq_iff_of_startBit? h).2 fun hempty => ?_
    rw [hempty.2] at hlength
    exact absurd hlength (by decide)
  omega

end Signal

namespace Reading

variable {o : Options} {origin : Origin} {c : Catalog} {id : UInt32}
variable {m : Message} {key : String} {s : Signal}

/-- **A signal that is read has bits**, wherever it is read from. -/
theorem length_pos_of_outcome (hc : (origin.read o).outcome = .ok c)
    (hm : c.get? id = some m) (hs : m.signal? key = some s) :
    1 ≤ s.length.toNat := by
  obtain ⟨text, -, htext⟩ := Origin.exists_ofText hc
  have hsound := ((sound_of_ofEntries htext).messages id m hm).2
  exact (hsound.signals key s hs).2.length_bounds.1

/-- **The lowest bit of a signal that was read is exact.** Whatever the options
are and wherever the catalogue is read from: a signal has a lowest bit exactly if
it has no more bits than there are up to its highest one, and then its lowest bit
and the number of its bits add up to the bit behind the highest one. A signal has
bits, because a position of bits is not accepted without them. Of all positions
and lengths of 16 bits, an empty signal at the last position is the only one whose
lowest bit 16 bits do not hold. -/
theorem lowest_bit_is_exact :
    (∀ (o : Options) (origin : Origin) (c : Catalog),
      (origin.read o).outcome = .ok c →
      ∀ id m key s, c.get? id = some m → m.signal? key = some s →
        ((∃ v, s.lowestBit? = some v) ↔ s.length.toNat ≤ s.endBit.toNat + 1)
        ∧ (∀ v, s.lowestBit? = some v →
          v.toNat + s.length.toNat = s.endBit.toNat + 1
            ∧ v.toNat ≤ s.endBit.toNat)
        ∧ (s.lowestBit? = none ↔ s.endBit.toNat + 1 < s.length.toNat)
        ∧ s.length ≠ 0)
    ∧ (∀ endBit length v, Signal.startBit? endBit length = some v →
        (v.toNat ≠ endBit.toNat + 1 - length.toNat
          ↔ endBit = 65535 ∧ length = 0))
    ∧ ∀ token endBit length,
        Statement.bitField token = .ok (endBit, length) → length ≠ 0 := by
  refine ⟨fun o origin c hc id m key s hm hs => ?_, fun endBit length v h => ?_,
    fun token endBit length => Statement.ne_zero_of_bitField⟩
  · have hlength := length_pos_of_outcome hc hm hs
    refine ⟨Signal.exists_startBit?_iff,
      fun v hv => Signal.add_length_of_startBit? hv hlength,
      Signal.startBit?_eq_none_iff, ?_⟩
    intro hzero
    rw [hzero] at hlength
    exact absurd hlength (by decide)
  · rw [ne_eq, Signal.toNat_eq_iff_of_startBit? h, not_not]

example : Signal.startBit? 65535 0 = some 0 := by decide

end Reading

end CanCatalog
