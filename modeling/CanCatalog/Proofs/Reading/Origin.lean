import CanCatalog.Proofs.Reading.Interruption
import CanCatalog.Proofs.Reading.Invariant
import CanCatalog.Proofs.Reading.Sources

/-!
# Every reading is a reading of a text

A catalogue can come from a text, from a stream or from a file. What is true of
catalogues is mostly true of all of them, for one reason: a source has a text, or
it is read to no catalogue at all. The text of a stream is what its bytes are in
UTF-8, and a stream that is something else, or that breaks off, has none. The
text of a file is what its bytes are taken for, and a file that cannot be opened
has none.

So a statement about all catalogues is proved for texts, and carried to the
other sources by the two lemmas of this module: what has a text is read as the
text is (`Origin.outcome_read`), and what is read has a text
(`Origin.exists_text?`).
-/

namespace CanCatalog.Reading

/-- **A stream that is read is UTF-8.** -/
theorem exists_decode_of_ofStream {o : Options} {bytes : List UInt8}
    {c : Catalog} (h : (ofStream o bytes).outcome = .ok c) :
    ∃ t, Text.Utf8.decode bytes = some t := by
  refine Option.ne_none_iff_exists'.1 fun hnone => ?_
  obtain ⟨k, front, hbreak⟩ := Text.Utf8.exists_breaksAt hnone
  rw [outcome_ofStream_of_breaksAt o hbreak] at h
  obtain ⟨_, -, h⟩ := Except.bind_eq_ok_iff.1 h
  exact absurd h nofun

/-- **A stream that breaks off is not read.** -/
theorem outcome_ofBrokenStream_ne_ok {o : Options} {bytes : List UInt8}
    {report : String} {c : Catalog} :
    (ofBrokenStream o bytes report).outcome ≠ .ok c := by
  intro h
  obtain ⟨front, -, -, -, hended⟩ := exists_endedPart bytes
  rw [outcome_ofBrokenStream o hended] at h
  obtain ⟨_, -, h⟩ := Except.bind_eq_ok_iff.1 h
  exact absurd h nofun

/-- **What can be read**, each kind in the one way that there is to read it. -/
inductive Origin where
  /-- A text in memory. -/
  | text (text : List Char)
  /-- A stream that ends. -/
  | stream (bytes : List UInt8)
  /-- A stream that breaks off. -/
  | brokenStream (bytes : List UInt8) (report : String)
  /-- A file, with its contents or the report of why there are none. -/
  | file (label : String) (contents : Except String (List UInt8))

namespace Origin

/-- **Reads from anywhere.** -/
def read (o : Options) : Origin → Run
  | text t => ofText o t
  | stream bytes => ofStream o bytes
  | brokenStream bytes report => ofBrokenStream o bytes report
  | file label contents => ofFile o label contents

/-- **The text of a source**, if it has one. -/
def text? : Origin → Option (List Char)
  | text t => some t
  | stream bytes => Text.Utf8.decode bytes
  | brokenStream _ _ => none
  | file label contents =>
    contents.toOption.map fun bytes => (decodedFile label bytes).1

variable {o : Options} {origin : Origin} {t : List Char} {c : Catalog}

/-- **A source is read as its text is.** -/
theorem outcome_read (h : origin.text? = some t) :
    (origin.read o).outcome = (ofText o t).outcome := by
  cases origin with
  | text t' =>
    obtain rfl := Option.some.inj h
    rfl
  | stream bytes =>
    show (ofStream o bytes).outcome = _
    rw [ofStream_of_decode o h]
  | brokenStream bytes report => exact absurd h nofun
  | file label contents =>
    cases contents with
    | error report => exact absurd h nofun
    | ok bytes =>
      obtain rfl := Option.some.inj h
      exact outcome_ofFile o label bytes

/-- **What is read has a text.** -/
theorem exists_text? (h : (origin.read o).outcome = .ok c) :
    ∃ t, origin.text? = some t := by
  cases origin with
  | text t => exact ⟨t, rfl⟩
  | stream bytes => exact exists_decode_of_ofStream h
  | brokenStream bytes report => exact absurd h outcome_ofBrokenStream_ne_ok
  | file label contents =>
    cases contents with
    | error report => exact absurd h (by simp [read, ofFile, Run.after])
    | ok bytes => exact ⟨_, rfl⟩

/-- **What is read is what a text is read to**, the same for every source that
has this text. -/
theorem exists_ofText (h : (origin.read o).outcome = .ok c) :
    ∃ t, origin.text? = some t ∧ (ofText o t).outcome = .ok c := by
  obtain ⟨t, ht⟩ := exists_text? h
  exact ⟨t, ht, outcome_read ht ▸ h⟩

end Origin

end CanCatalog.Reading
