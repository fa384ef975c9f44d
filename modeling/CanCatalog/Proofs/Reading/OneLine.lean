import CanCatalog.Proofs.Reading.Account
import CanCatalog.Proofs.Text.OneLine

/-!
# A text cannot break its log

A log that is kept of the reading of a text repeats parts of the text, and so do
the messages of errors. Lines and words that are found to be wrong are quoted.
But the names of messages and signals are written as they are, without quotation
marks or between single ones that escape nothing, and numbers are written out.
If one of these could contain a line break, a text could write records of its
own into the log of its reading.

None can. Which parts a record or a fault has that are written as they are is
said first (`Event.plain`, `Fault.plain`): if these are on one line, the whole
message is. What is left is where such a part comes from. A name in a record is
the name that a line states, hence free of white space
(`Statement.States.message_sound`, `Statement.States.signal_sound`); a fault of
words has no such part at all; and the options object to a signal by the name it
was given by its line.
-/

namespace CanCatalog

open Statement (States)
open Text (OneLine oneLine_append_iff oneLine_toString oneLine_quotedString)

/-! ## What is written as it is -/

/-- The parts of a record that are written as they are. -/
def Event.plain : Event → List String
  | openingFile label | takenAsLatin1 label => [label]
  | messageOpened _ _ genus => [genus]
  | signalReplaced _ _ name => [name]
  | started | skipped .. | messageReplaced .. | finished .. => []

/-- **The wording of a record is on one line** if what is written as it is
is. -/
theorem Event.oneLine_text {r : Event}
    (h : ∀ part ∈ r.plain, OneLine part.toList) : OneLine r.text.toList := by
  unfold Event.text
  cases r with
  | openingFile label =>
    simp only [String.toList_append, oneLine_append_iff]
    exact ⟨by decide, h label List.mem_cons_self⟩
  | takenAsLatin1 label =>
    simp only [String.toList_append, oneLine_append_iff]
    exact ⟨⟨by decide, h label List.mem_cons_self⟩, by decide⟩
  | started => decide
  | skipped n content =>
    simp only [String.toList_append, oneLine_append_iff, oneLine_toString,
      oneLine_quotedString]
    decide
  | messageReplaced n id =>
    simp only [String.toList_append, oneLine_append_iff, oneLine_toString]
    decide
  | messageOpened n id genus =>
    simp only [String.toList_append, oneLine_append_iff, oneLine_toString,
      h genus List.mem_cons_self]
    decide
  | signalReplaced n id name =>
    simp only [String.toList_append, oneLine_append_iff, oneLine_toString,
      h name List.mem_cons_self]
    decide
  | finished messages signals lines =>
    simp only [String.toList_append, oneLine_append_iff, oneLine_toString]
    decide

/-- **A record is printed on one line** if what is written as it is is. -/
theorem Event.oneLine_render {r : Event}
    (h : ∀ part ∈ r.plain, OneLine part.toList) :
    OneLine r.render.toList := by
  have hlevel : ∀ level : Level, OneLine level.name.toList := by
    intro level
    cases level <;> decide
  unfold Event.render
  rw [String.toList_append, String.toList_append, oneLine_append_iff,
    oneLine_append_iff]
  exact ⟨⟨hlevel r.level, by decide⟩, oneLine_text h⟩

/-- The parts of a fault that are written as they are, numbers aside. -/
def Fault.plain : Fault → List String
  | repeatedSignal _ name => [name]
  | emptyRange name _ _ => [name]
  | strayLine _ | tooShort .. | notANumber _ | badBitField .. |
    repeatedMessage _ => []

/-- A number in a message is on one line. -/
theorem Number.oneLine_toText (n : Number) : OneLine n.toText.toList := by
  rw [toText, String.toList_ofList]
  exact n.isSolid_text.oneLine

/-- The reason why a word is no position of bits is on one line. -/
theorem BitFieldFault.oneLine_reason (why : BitFieldFault) :
    OneLine why.reason.toList := by
  cases why <;> decide

/-- **The wording of a fault is on one line** if what is written as it is
is. -/
theorem Fault.oneLine_message {fault : Fault}
    (h : ∀ part ∈ fault.plain, OneLine part.toList) :
    OneLine fault.message.toList := by
  unfold Fault.message
  cases fault with
  | strayLine content =>
    simp only [String.toList_append, oneLine_append_iff, oneLine_quotedString]
    decide
  | tooShort expected found content =>
    simp only [String.toList_append, oneLine_append_iff, oneLine_toString,
      oneLine_quotedString]
    decide
  | notANumber token =>
    simp only [String.toList_append, oneLine_append_iff, oneLine_quotedString]
    decide
  | badBitField token why =>
    simp only [String.toList_append, oneLine_append_iff, oneLine_quotedString,
      why.oneLine_reason]
    decide
  | repeatedMessage id =>
    simp only [String.toList_append, oneLine_append_iff, oneLine_toString]
    decide
  | repeatedSignal id name =>
    simp only [String.toList_append, oneLine_append_iff, oneLine_toString,
      h name List.mem_cons_self]
    decide
  | emptyRange name minimum maximum =>
    simp only [String.toList_append, oneLine_append_iff,
      Number.oneLine_toText, h name List.mem_cons_self]
    decide

/-- A fault of words has no part that is written as it is. -/
theorem Fault.OfWords.plain_eq_nil {fault : Fault} (h : fault.OfWords) :
    fault.plain = [] := by
  cases h <;> rfl

/-! ## Where it comes from -/

namespace Progress

/-- **A line is refused with a fault on one line.** -/
theorem Coherent.oneLine_of_readLine {p : Progress} (h : p.Coherent)
    {o : Options} {line : List Char} {e : ReadError}
    (he : p.readLine o line = .error e) : OneLine e.message.toList := by
  obtain ⟨fault, rfl, hfault⟩ := h.readLine_eq_error_iff.1 he
  have hplain : ∀ part ∈ fault.plain, OneLine part.toList := by
    rcases hfault with hline | ⟨st, hst, hobj⟩
    · rcases Statement.ofLine_eq_error hline with hwords | ⟨-, -, rfl⟩
      · rw [hwords.plain_eq_nil]
        exact fun part hpart => absurd hpart List.not_mem_nil
      · exact fun part hpart => absurd hpart List.not_mem_nil
    · have hstates := Statement.states_of_ofLine hst
      rcases exists_of_objection? hobj with
        ⟨m, -, rfl⟩ | ⟨s, rfl, rfl | ⟨id, rfl⟩⟩
      · exact fun part hpart => absurd hpart List.not_mem_nil
      · exact List.forall_mem_singleton.2
          hstates.signal_sound.name_isWord.2.oneLine
      · exact List.forall_mem_singleton.2
          hstates.signal_sound.name_isWord.2.oneLine
  unfold ReadError.message
  simp only [String.toList_append, oneLine_append_iff, oneLine_toString,
    Fault.oneLine_message hplain]
  decide

end Progress

namespace Reading

variable {lines front : List (List Char)} {line : List Char}
  {events more : List Event}

/-- **What a line leaves is on one line.** -/
theorem Leaves.oneLine_of_mem_plain (h : Leaves front line more) {r : Event}
    (hr : r ∈ more) {part : String} (hpart : part ∈ r.plain) :
    OneLine part.toList := by
  cases h with
  | blank => exact absurd hr List.not_mem_nil
  | other =>
    obtain rfl := List.mem_singleton.1 hr
    exact absurd hpart List.not_mem_nil
  | message states =>
    obtain rfl := List.mem_singleton.1 hr
    obtain rfl := List.mem_singleton.1 hpart
    exact states.message_sound.genus_isSolid.oneLine
  | messageAgain states =>
    rcases List.mem_cons.1 hr with rfl | hr
    · exact absurd hpart List.not_mem_nil
    · obtain rfl := List.mem_singleton.1 hr
      obtain rfl := List.mem_singleton.1 hpart
      exact states.message_sound.genus_isSolid.oneLine
  | signal => exact absurd hr List.not_mem_nil
  | signalAgain states =>
    obtain rfl := List.mem_singleton.1 hr
    obtain rfl := List.mem_singleton.1 hpart
    exact states.signal_sound.name_isWord.2.oneLine

/-- What lines leave is on one line. -/
theorem Recorded.oneLine_of_mem_plain (h : Recorded lines events) {r : Event}
    (hr : r ∈ events) {part : String} (hpart : part ∈ r.plain) :
    OneLine part.toList := by
  induction h with
  | nil => exact absurd hr List.not_mem_nil
  | line _ last ih =>
    rcases List.mem_append.1 hr with hr | hr
    · exact ih hr
    · exact last.oneLine_of_mem_plain hr hpart

/-- **The records of lines are printed on one line**, and so are records before
and behind them that write nothing as it is. -/
theorem Recorded.oneLine_render (h : Recorded lines events)
    {before after : List Event} (hends : ∀ r ∈ before ++ after, r.plain = [])
    {r : Event} (hr : r ∈ before ++ events ++ after) :
    OneLine r.render.toList := by
  rw [List.append_assoc, List.mem_append, List.mem_append] at hr
  refine Event.oneLine_render fun part hpart => ?_
  rcases hr with hr | hr | hr
  · rw [hends r (List.mem_append_left _ hr)] at hpart
    exact absurd hpart List.not_mem_nil
  · exact h.oneLine_of_mem_plain hr hpart
  · rw [hends r (List.mem_append_right _ hr)] at hpart
    exact absurd hpart List.not_mem_nil

/-- **No text breaks its log or its error over several lines**, whatever the
options: each record of a reading is printed on one line, and so is the message
of its error. -/
theorem stays_on_one_line (o : Options) (text : List Char) :
    (∀ r ∈ (ofText o text).log, OneLine r.render.toList)
    ∧ ∀ e, (ofText o text).outcome = .error e → OneLine e.message.toList := by
  constructor
  · intro r hr
    cases hread : Progress.start.readLines o (linesOf text) with
    | ok p =>
      obtain ⟨events, hevents, hlog⟩ := exists_log_of_ok hread
      exact hevents.oneLine_render (by simp [finish, Event.plain]) (hlog ▸ hr)
    | error e =>
      obtain ⟨_, _, _, _, events, -, -, hevents, hlog⟩ :=
        exists_log_of_error hread
      exact hevents.oneLine_render (by simp [Event.plain]) (hlog ▸ hr)
  · intro e he
    obtain ⟨_, _, _, p, _, -, hp, hline, -⟩ :=
      exists_of_readLines_eq_error (outcome_ofText_eq_error_iff.1 he)
    exact (Progress.of_readLines_start hp).1.oneLine_of_readLine hline

end Reading

end CanCatalog
