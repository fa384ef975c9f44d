import CanCatalog.Proofs.Outcome
import CanCatalog.Proofs.Text.Cut
import CanCatalog.Reading.Source
import Mathlib.Data.List.Basic

/-!
# Streams that break off

A stream may fail in the middle. What it has delivered by then ends anywhere,
and the piece behind the last line feed is not a line that happens to lack its
end: a number in it may lack digits and still be a number. So that piece is not
read, not even to see whether it is UTF-8.

What remains is the *ended part* of the stream (`EndedPart`), and a stream that
breaks off is that part, read as if it were all, with a failure behind it. The
failure has the last word. A fault in the ended part was met before, and stays
what it is; without one there would be a catalogue, and the failure takes its
place.
-/

namespace CanCatalog.Reading

/-! ## The ended part -/

/-- **The ended part of a stream**: of the parts at its front that are empty or
end with a line feed, the longest. -/
structure EndedPart (bytes front : List UInt8) : Prop where
  /-- It stands at the front. -/
  at_front : front <+: bytes
  /-- It is empty or ends with a line feed. -/
  ended : front = [] ∨ front.getLast? = some 10
  /-- There is no longer one. -/
  longest : ∀ other, other <+: bytes → other = [] ∨ other.getLast? = some 10 →
    other.length ≤ front.length

/-- A stream has one ended part. -/
theorem EndedPart.unique {bytes front other : List UInt8}
    (h : EndedPart bytes front) (h' : EndedPart bytes other) :
    other = front := by
  have hle := h.longest other h'.at_front h'.ended
  have hge := h'.longest front h.at_front h.ended
  exact (List.prefix_of_prefix_length_le h'.at_front h.at_front hle).eq_of_length
    (Nat.le_antisymm hle hge)

/-- What is ended and has no line feed behind it is the ended part. -/
theorem endedPart_append {front tail : List UInt8}
    (hended : front = [] ∨ front.getLast? = some 10) (htail : 10 ∉ tail) :
    EndedPart (front ++ tail) front where
  at_front := List.prefix_append front tail
  ended := hended
  longest other hother hother_ended := by
    rcases hother_ended with rfl | hlast
    · exact Nat.zero_le _
    · -- a longer part would end with a line feed of the tail
      refine Nat.le_of_not_lt fun hlt => htail ?_
      obtain ⟨back, hback⟩ := List.prefix_of_prefix_length_le
        (List.prefix_append front tail) hother (Nat.le_of_lt hlt)
      have hne : back ≠ [] := by
        rintro rfl
        rw [List.append_nil] at hback
        exact absurd hlt (hback ▸ Nat.lt_irrefl _)
      rw [← hback, List.getLast?_append_of_ne_nil _ hne] at hlast
      rw [← hback, List.prefix_append_right_inj] at hother
      exact hother.subset (List.mem_of_getLast? hlast)

/-- **Every stream is its ended part and a piece without a line feed.** -/
theorem exists_endedPart (bytes : List UInt8) :
    ∃ front tail, bytes = front ++ tail ∧ 10 ∉ tail
      ∧ EndedPart bytes front := by
  obtain ⟨front, tail, rfl, htail, hended⟩ :=
    Text.Lines.exists_ended_append (10 : UInt8) bytes
  exact ⟨front, tail, rfl, htail, endedPart_append hended htail⟩

/-! ## The failure behind it -/

/-- **A failure behind all entries has the last word**, unless there was an
error before. -/
theorem outcome_readOn_append_error (o : Options) (fault : SourceFault)
    (entries : List Entry) (p : Progress) :
    (readOn o p (entries ++ [.error fault])).outcome
      = (readOn o p entries).outcome.bind
          fun _ => .error (.inSource fault) := by
  induction entries generalizing p with
  | nil => rfl
  | cons entry entries ih =>
    cases entry with
    | error fault' => rfl
    | ok line =>
      rw [List.cons_append]
      cases hstep : (p.step o line).outcome with
      | error e =>
        rw [readOn_of_error hstep, readOn_of_error hstep]
        rfl
      | ok q =>
        rw [readOn_of_ok hstep, readOn_of_ok hstep]
        exact ih q

/-- What stands behind the last line feed of a broken stream is not read. -/
theorem ofBrokenStream_append (o : Options) {front tail : List UInt8}
    (hended : front = [] ∨ front.getLast? = some 10) (htail : 10 ∉ tail)
    (report : String) :
    ofBrokenStream o (front ++ tail) report
      = ofBrokenStream o front report := by
  unfold ofBrokenStream Text.Lines.ofBytes
  rw [Text.Lines.cut_append front tail hended,
    Text.Lines.cut_of_not_mem htail, List.append_nil]

/-- **A broken stream is its ended part and a failure behind it.** -/
theorem outcome_ofBrokenStream (o : Options) {bytes front : List UInt8}
    (h : EndedPart bytes front) (report : String) :
    (ofBrokenStream o bytes report).outcome
      = (ofStream o front).outcome.bind
          fun _ => .error (.inSource (.broken report)) := by
  obtain ⟨front', tail, rfl, htail, h'⟩ := exists_endedPart bytes
  obtain rfl := h.unique h'
  rw [ofBrokenStream_append o h.ended htail]
  unfold ofBrokenStream ofStream Text.Lines.ofBytes
  rw [Text.Lines.toList_cut_eq_ended h.ended]
  exact outcome_readOn_append_error o _ _ .start

/-- **No catalogue comes from a stream that breaks off.** The stream has an
ended part, and only one. Read as a stream that ends there, this part either has
an error, and then the same error is that of the broken stream; or it is a
catalogue, and then the failure of the stream takes its place. What was
delivered behind the ended part has no influence, whatever its bytes are: with
any other piece of a line in its place the run is the same. -/
theorem broken_stream_is_ended_part (o : Options) (bytes : List UInt8)
    (report : String) :
    (∀ c, (ofBrokenStream o bytes report).outcome ≠ .ok c)
    ∧ ∃ front, EndedPart bytes front
      ∧ (∀ other, EndedPart bytes other → other = front)
      ∧ (∀ e, (ofStream o front).outcome = .error e →
          (ofBrokenStream o bytes report).outcome = .error e)
      ∧ (∀ c, (ofStream o front).outcome = .ok c →
          (ofBrokenStream o bytes report).outcome
            = .error (.inSource (.broken report)))
      ∧ ∀ piece, 10 ∉ piece →
          ofBrokenStream o (front ++ piece) report
            = ofBrokenStream o bytes report := by
  obtain ⟨front, tail, hbytes, htail, h⟩ := exists_endedPart bytes
  have hread := outcome_ofBrokenStream o h report
  refine ⟨fun c hc => ?_, front, h, fun other => h.unique, fun e he => ?_,
    fun c hc => ?_, fun piece hpiece => ?_⟩
  · rw [hread] at hc
    obtain ⟨_, -, hc⟩ := Except.bind_eq_ok_iff.1 hc
    exact absurd hc (by simp)
  · rw [hread, he]
    rfl
  · rw [hread, hc]
    rfl
  · rw [hbytes, ofBrokenStream_append o h.ended hpiece,
      ofBrokenStream_append o h.ended htail]

end CanCatalog.Reading
