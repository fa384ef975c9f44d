import CanCatalog.Proofs.Outcome
import CanCatalog.Proofs.Text.Word
import CanCatalog.Statement

/-!
# The kinds of lines

A line is blank, or defines a message, or defines a signal, or is of no
concern, and its first word decides which. The word also decides for whom it
matters whether a message is being defined: only the definition of a signal
can be out of place, and then it is refused whatever else it says.

So there is one reading of a line that is its own, the one where a message is
being defined. It is what a line *states* (`Statement.States`), and a line
that states something is *well-formed*. A line that is read successfully
somewhere states what it was read as.
-/

namespace CanCatalog.Statement

/-- **A line begins with a word.** -/
def Begins (keyword line : List Char) : Prop :=
  (Text.words line).head? = some keyword

instance (keyword line : List Char) : Decidable (Begins keyword line) :=
  inferInstanceAs (Decidable (_ = _))

/-- **What a line states** where a message is being defined. -/
def States (st : Statement) (line : List Char) : Prop :=
  ofLine true line = .ok st

/-- A line that is free of faults where a message is being defined. -/
def WellFormed (line : List Char) : Prop := ∃ st, States st line

/-- **The four kinds of lines**, each with its first word and its reading. -/
inductive Kind (line : List Char) : Prop where
  /-- There is no word. -/
  | blank (words_eq : Text.words line = [])
    (ofLine_eq : ∀ messageOpen, ofLine messageOpen line = .ok .blank)
  /-- The first word announces a message. -/
  | message (begins : Begins messageKeyword line)
    (ofLine_eq : ∀ messageOpen, ofLine messageOpen line
      = (ofMessageWords line (Text.words line)).map .message)
  /-- The first word announces a signal. -/
  | signal (begins : Begins signalKeyword line)
    (ofLine_true : ofLine true line
      = (ofSignalLine line (Text.words line)).map .signal)
    (ofLine_false : ofLine false line
      = .error (.strayLine (String.ofList line)))
  /-- The first word is another one. -/
  | other (word : List Char) (begins : Begins word line)
    (not_message : word ≠ messageKeyword) (not_signal : word ≠ signalKeyword)
    (ofLine_eq : ∀ messageOpen, ofLine messageOpen line = .ok .other)

/-- **Every line is of one of these kinds.** -/
theorem kind (line : List Char) : Kind line := by
  cases hwords : Text.words line with
  | nil =>
    refine .blank hwords fun messageOpen => ?_
    simp only [ofLine, hwords]
  | cons word rest =>
    have hbegins : Begins word line := by
      unfold Begins
      rw [hwords]
      rfl
    by_cases hm : word = messageKeyword
    · refine .message (hm ▸ hbegins) fun messageOpen => ?_
      simp only [ofLine, hwords]
      rw [if_pos hm]
    · by_cases hs : word = signalKeyword
      · refine .signal (hs ▸ hbegins) ?_ ?_
        · simp only [ofLine, hwords]
          rw [if_neg hm, if_pos hs, if_pos trivial]
        · simp only [ofLine, hwords]
          rw [if_neg hm, if_pos hs, if_neg Bool.false_ne_true]
      · refine .other word hbegins hm hs fun messageOpen => ?_
        simp only [ofLine, hwords]
        rw [if_neg hm, if_neg hs]

/-! ## The first word -/

theorem Begins.unique {a b line : List Char} (ha : Begins a line)
    (hb : Begins b line) : a = b :=
  Option.some.inj (ha.symm.trans hb)

theorem Begins.words_ne_nil {a line : List Char} (h : Begins a line) :
    Text.words line ≠ [] := by
  intro hnil
  unfold Begins at h
  rw [hnil] at h
  exact absurd h (by simp)

/-- A line and its first word begin with the same character, unless it is white
space. -/
theorem Begins.head?_eq {keyword line : List Char} {c : Char}
    (h : Begins keyword (c :: line)) (hc : Text.isBlank c = false) :
    keyword.head? = some c := by
  obtain ⟨word, rest, hwords⟩ := Text.exists_words_cons hc line
  unfold Begins at h
  rw [hwords] at h
  obtain rfl := Option.some.inj h
  rfl

theorem messageKeyword_ne_signalKeyword : messageKeyword ≠ signalKeyword := by
  decide

/-- What a line states determines how it begins. -/
theorem States.kind {st : Statement} {line : List Char} (h : States st line) :
    match st with
    | .blank => Text.words line = []
    | .other => ∃ word, Begins word line ∧ word ≠ messageKeyword
        ∧ word ≠ signalKeyword
    | .message _ => Begins messageKeyword line
    | .signal _ => Begins signalKeyword line := by
  unfold States at h
  cases Statement.kind line with
  | blank hwords heq =>
    obtain rfl := Except.ok.inj ((heq true).symm.trans h)
    exact hwords
  | message hbegins heq =>
    rw [heq true] at h
    obtain ⟨m, -, rfl⟩ := Except.map_eq_ok_iff.1 h
    exact hbegins
  | signal hbegins heq _ =>
    rw [heq] at h
    obtain ⟨s, -, rfl⟩ := Except.map_eq_ok_iff.1 h
    exact hbegins
  | other word hbegins hm hs heq =>
    obtain rfl := Except.ok.inj ((heq true).symm.trans h)
    exact ⟨word, hbegins, hm, hs⟩

theorem States.unique {st st' : Statement} {line : List Char}
    (h : States st line) (h' : States st' line) : st = st' :=
  Except.ok.inj (h.symm.trans h')

/-- A well-formed line that begins as a message does defines one. -/
theorem WellFormed.message {line : List Char} (h : WellFormed line)
    (hbegins : Begins messageKeyword line) : ∃ m, States (.message m) line := by
  obtain ⟨st, hst⟩ := h
  cases st with
  | message m => exact ⟨m, hst⟩
  | blank => exact absurd hst.kind hbegins.words_ne_nil
  | other =>
    obtain ⟨word, hword, hne, -⟩ := hst.kind
    exact absurd (hword.unique hbegins) hne
  | signal s =>
    exact absurd (hbegins.unique hst.kind) messageKeyword_ne_signalKeyword

/-- A well-formed line that begins as a signal does defines one. -/
theorem WellFormed.signal {line : List Char} (h : WellFormed line)
    (hbegins : Begins signalKeyword line) : ∃ s, States (.signal s) line := by
  obtain ⟨st, hst⟩ := h
  cases st with
  | signal s => exact ⟨s, hst⟩
  | blank => exact absurd hst.kind hbegins.words_ne_nil
  | other =>
    obtain ⟨word, hword, -, hne⟩ := hst.kind
    exact absurd (hword.unique hbegins) hne
  | message m =>
    have hm : Begins messageKeyword line := hst.kind
    exact absurd (hm.unique hbegins) messageKeyword_ne_signalKeyword

/-- What begins as a message does and states something states a message. -/
theorem States.begins_message_iff {st : Statement} {line : List Char}
    (h : States st line) :
    Begins messageKeyword line ↔ ∃ m, st = .message m := by
  constructor
  · intro hbegins
    obtain ⟨m, hm⟩ := WellFormed.message ⟨st, h⟩ hbegins
    exact ⟨m, h.unique hm⟩
  · rintro ⟨m, rfl⟩
    exact h.kind

/-- A line that begins otherwise is well-formed whatever it says. -/
theorem wellFormed_of_not_begins {line : List Char}
    (hm : ¬ Begins messageKeyword line) (hs : ¬ Begins signalKeyword line) :
    WellFormed line := by
  cases Statement.kind line with
  | blank _ heq => exact ⟨_, heq true⟩
  | message hbegins _ => exact absurd hbegins hm
  | signal hbegins _ _ => exact absurd hbegins hs
  | other _ _ _ _ heq => exact ⟨_, heq true⟩

/-! ## Where a line is read -/

/-- A line that is read states what it was read as. -/
theorem states_of_ofLine {messageOpen : Bool} {line : List Char}
    {st : Statement} (h : ofLine messageOpen line = .ok st) :
    States st line := by
  unfold States
  cases messageOpen with
  | true => exact h
  | false =>
    cases Statement.kind line with
    | blank _ heq => rw [heq true, ← heq false, h]
    | message _ heq => rw [heq true, ← heq false, h]
    | signal _ _ hfalse => exact absurd (hfalse.symm.trans h) (by simp)
    | other _ _ _ _ heq => rw [heq true, ← heq false, h]

/-- **Only the definition of a signal can be out of place.** -/
theorem ofLine_eq_ok_iff {messageOpen : Bool} {line : List Char}
    {st : Statement} :
    ofLine messageOpen line = .ok st
      ↔ States st line ∧ (Begins signalKeyword line → messageOpen = true) := by
  constructor
  · intro h
    refine ⟨states_of_ofLine h, fun hbegins => ?_⟩
    cases messageOpen with
    | true => rfl
    | false =>
      obtain ⟨s, hs⟩ := WellFormed.signal ⟨st, states_of_ofLine h⟩ hbegins
      cases Statement.kind line with
      | blank hwords _ => exact absurd hwords hbegins.words_ne_nil
      | message hm _ =>
        exact absurd (hm.unique hbegins) messageKeyword_ne_signalKeyword
      | signal _ _ hfalse => exact absurd (hfalse.symm.trans h) (by simp)
      | other _ hw _ hne _ => exact absurd (hw.unique hbegins) hne
  · rintro ⟨h, hopen⟩
    cases messageOpen with
    | true => exact h
    | false =>
      cases Statement.kind line with
      | blank _ heq => rw [heq false, ← heq true, h]
      | message _ heq => rw [heq false, ← heq true, h]
      | signal hbegins _ _ => exact absurd (hopen hbegins) Bool.false_ne_true
      | other _ _ _ _ heq => rw [heq false, ← heq true, h]

/-! ## What a definition leaves open -/

/-- A line that begins as a message does is read as one. -/
theorem Begins.ofLine_message {line : List Char}
    (h : Begins messageKeyword line) (messageOpen : Bool) :
    ofLine messageOpen line
      = (ofMessageWords line (Text.words line)).map .message := by
  cases Statement.kind line with
  | blank hwords _ => exact absurd hwords h.words_ne_nil
  | signal hs _ _ =>
    exact absurd (h.unique hs) messageKeyword_ne_signalKeyword
  | other _ hw hne _ _ => exact absurd (hw.unique h) hne
  | message _ heq => exact heq messageOpen

/-- A line that begins as a signal does is read as one, where a message is being
defined. -/
theorem Begins.ofLine_signal {line : List Char}
    (h : Begins signalKeyword line) :
    ofLine true line = (ofSignalLine line (Text.words line)).map .signal := by
  cases Statement.kind line with
  | blank hwords _ => exact absurd hwords h.words_ne_nil
  | message hm _ =>
    exact absurd (hm.unique h) messageKeyword_ne_signalKeyword
  | other _ hw _ hne _ => exact absurd (hw.unique h) hne
  | signal _ heq _ => exact heq

/-- A message that is stated is read from the words of its line. -/
theorem States.ofMessageWords_eq {m : Message} {line : List Char}
    (h : States (.message m) line) :
    ofMessageWords line (Text.words line) = .ok m := by
  have hbegins : Begins messageKeyword line := h.kind
  rw [States, hbegins.ofLine_message] at h
  obtain ⟨m', hm, hmm⟩ := Except.map_eq_ok_iff.1 h
  rw [hm, Statement.message.inj hmm]

/-- A signal that is stated is read from the words of its line. -/
theorem States.ofSignalLine_eq {s : Signal} {line : List Char}
    (h : States (.signal s) line) :
    ofSignalLine line (Text.words line) = .ok s := by
  have hbegins : Begins signalKeyword line := h.kind
  rw [States, hbegins.ofLine_signal] at h
  obtain ⟨s', hs, hss⟩ := Except.map_eq_ok_iff.1 h
  rw [hs, Statement.signal.inj hss]

/-- **A message is read without signals.** -/
theorem States.signal?_eq_none {m : Message} {line : List Char}
    (h : States (.message m) line) (name : String) : m.signal? name = none := by
  have hwords := h.ofMessageWords_eq
  unfold ofMessageWords at hwords
  split at hwords
  · obtain ⟨_, _, hwords⟩ := Except.bind_eq_ok_iff.1 hwords
    obtain ⟨_, _, hwords⟩ := Except.bind_eq_ok_iff.1 hwords
    obtain rfl := Except.ok.inj hwords
    exact Message.signal?_empty _ _ _ _ name
  · exact absurd hwords (by simp)

/-- The words of a signal say nothing of a value. -/
theorem value_of_ofSignalWords {name bits scale limits description : List Char}
    {s : Signal}
    (h : ofSignalWords name bits scale limits description = .ok s) :
    s.value = none := by
  obtain ⟨_, _, h⟩ := Except.bind_eq_ok_iff.1 h
  obtain ⟨_, _, h⟩ := Except.bind_eq_ok_iff.1 h
  obtain ⟨_, _, h⟩ := Except.bind_eq_ok_iff.1 h
  obtain rfl := Except.ok.inj h
  rfl

/-- **A signal is read without a value.** -/
theorem States.value_eq {s : Signal} {line : List Char}
    (h : States (.signal s) line) : s.value = none := by
  have hwords := h.ofSignalLine_eq
  unfold ofSignalLine at hwords
  -- with a tag or without one, the same words make the signal
  split at hwords
  all_goals
    split at hwords
    · exact value_of_ofSignalWords hwords
    · exact absurd hwords (by simp)

end CanCatalog.Statement
