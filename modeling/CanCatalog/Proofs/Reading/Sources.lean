import CanCatalog.Proofs.Reading.Lines
import CanCatalog.Proofs.Text.Decode

/-!
# One catalogue from all sources

A text, a stream of bytes and a file of bytes are read in three ways that
share nothing but the step of a single line. A text is cut into lines of
characters; a stream is cut into lines of bytes, each decoded when its turn
comes; a file is decoded first and cut afterwards.

As long as the bytes are UTF-8, this makes no difference, because the lines of
a stream decode to the lines of its text. If they are not, the stream and the
file part. The stream has a first line that cannot be decoded; it is read up
to there and ends in failure in any case, with a fault of the lines before or
with that of the decoding. The file is taken for Latin-1, in which every
sequence of bytes is a text.
-/

namespace CanCatalog.Reading

/-! ## The entries of a stream -/

/-- An entry from what the decoding of a line gave. -/
def entryOf : Option (List Char) → Entry
  | some line => .ok line
  | none => .error .notUtf8

/-- The entries of a stream are its lines, decoded. -/
theorem map_decodedLine (lines : List (List UInt8)) :
    lines.map decodedLine = (lines.map Text.Utf8.decode).map entryOf := by
  rw [List.map_map]
  refine List.map_congr_left fun line _ => ?_
  show decodedLine line = entryOf (Text.Utf8.decode line)
  unfold decodedLine
  cases Text.Utf8.decode line <;> rfl

/-- **A stream of UTF-8 is read as its text is**, with the same records. -/
theorem ofStream_of_decode (o : Options) {bytes : List UInt8}
    {text : List Char} (h : Text.Utf8.decode bytes = some text) :
    ofStream o bytes = ofText o text := by
  unfold ofStream ofText
  rw [map_decodedLine, Text.Utf8.map_decode_ofBytes h, List.map_map]
  rfl

/-- **A stream that is not UTF-8 is read up to the first line that is not**,
and fails there at the latest. -/
theorem outcome_ofStream_of_breaksAt (o : Options) {bytes : List UInt8}
    {k : Nat} {front : List Char} (h : Text.Utf8.BreaksAt bytes k front) :
    (ofStream o bytes).outcome
      = (ofText o front).outcome.bind
        fun _ => .error (.inSource .notUtf8) := by
  obtain ⟨more, hmore⟩ := h.map_decode
  have hentries : (Text.Lines.ofBytes bytes).toList.map decodedLine
      = (Text.Lines.ofChars front).toList.map .ok
        ++ .error .notUtf8 :: more.map entryOf := by
    rw [map_decodedLine, hmore, List.map_append, List.map_map]
    rfl
  have hread := outcome_readOn o (.error .notUtf8 :: more.map entryOf)
    (Text.Lines.ofChars front).toList Progress.coherent_start
  rw [← hentries] at hread
  rw [outcome_ofText]
  show (readOn o .start _).outcome = _
  rw [hread]
  show Except.bind (Progress.start.readLines o (linesOf front)) _ = _
  cases Progress.start.readLines o (linesOf front) <;> rfl

/-! ## Files -/

/-- A file is read as the text that it is decoded to. -/
theorem outcome_ofFile (o : Options) (label : String) (bytes : List UInt8) :
    (ofFile o label (.ok bytes)).outcome
      = (ofText o (decodedFile label bytes).1).outcome := rfl

/-- A file of UTF-8 is read as its text is. -/
theorem outcome_ofFile_of_decode (o : Options) (label : String)
    {bytes : List UInt8} {text : List Char}
    (h : Text.Utf8.decode bytes = some text) :
    (ofFile o label (.ok bytes)).outcome = (ofText o text).outcome := by
  rw [outcome_ofFile, decodedFile, h]

/-- A file that is not UTF-8 is read as Latin-1. -/
theorem outcome_ofFile_of_decode_eq_none (o : Options) (label : String)
    {bytes : List UInt8} (h : Text.Utf8.decode bytes = none) :
    (ofFile o label (.ok bytes)).outcome
      = (ofText o (Text.latin1 bytes)).outcome := by
  rw [outcome_ofFile, decodedFile, h]

/-- **A text is no source that could fail.** -/
theorem outcome_ofText_ne_inSource (o : Options) (text : List Char)
    (fault : SourceFault) :
    (ofText o text).outcome ≠ .error (.inSource fault) := by
  intro h
  rw [outcome_ofText_eq_error_iff] at h
  obtain ⟨_, _, _, _, _, -, -, -, he⟩ := exists_of_readLines_eq_error h
  exact absurd he (by simp)

/-! ## The three together -/

/-- **All sources agree.** Bytes that are UTF-8 give the same outcome as a
stream, as a file and as the text they stand for, and the source is never what
failed. Bytes that are not are no catalogue as a stream: the outcome is the
error in the lines before the first line that is not UTF-8, if these have one,
and the failure to decode that line otherwise. As a file they are the text
that they are in Latin-1, and again the source does not fail. -/
theorem sources_agree (o : Options) (label : String) (bytes : List UInt8) :
    (∀ text, Text.Utf8.decode bytes = some text →
      (ofStream o bytes).outcome = (ofText o text).outcome
      ∧ (ofFile o label (.ok bytes)).outcome = (ofText o text).outcome
      ∧ ∀ fault, (ofText o text).outcome ≠ .error (.inSource fault))
    ∧ (Text.Utf8.decode bytes = none →
      (∀ c, (ofStream o bytes).outcome ≠ .ok c)
      ∧ (∃ k front, Text.Utf8.BreaksAt bytes k front)
      ∧ (∀ k front, Text.Utf8.BreaksAt bytes k front →
        (∀ e, (ofText o front).outcome = .error e →
          (ofStream o bytes).outcome = .error e)
        ∧ ∀ c, (ofText o front).outcome = .ok c →
          (ofStream o bytes).outcome = .error (.inSource .notUtf8))
      ∧ (ofFile o label (.ok bytes)).outcome
        = (ofText o (Text.latin1 bytes)).outcome
      ∧ ∀ fault, (ofFile o label (.ok bytes)).outcome
        ≠ .error (.inSource fault)) := by
  constructor
  · intro text h
    refine ⟨?_, outcome_ofFile_of_decode o label h,
      outcome_ofText_ne_inSource o text⟩
    rw [ofStream_of_decode o h]
  · intro h
    have hfile := outcome_ofFile_of_decode_eq_none o label h
    obtain ⟨k, front, hbreak⟩ := Text.Utf8.exists_breaksAt h
    refine ⟨?_, ⟨k, front, hbreak⟩, ?_, hfile, ?_⟩
    · intro c
      rw [outcome_ofStream_of_breaksAt o hbreak]
      intro hc
      obtain ⟨_, -, hc⟩ := Except.bind_eq_ok_iff.1 hc
      exact absurd hc (by simp)
    · intro k front hbreak
      rw [outcome_ofStream_of_breaksAt o hbreak]
      constructor
      · intro e he
        rw [he]
        rfl
      · intro c hc
        rw [hc]
        rfl
    · intro fault
      rw [hfile]
      exact outcome_ofText_ne_inSource o _ fault

end CanCatalog.Reading
