import CanCatalog.Proofs.Statement.Kind
import CanCatalog.Proofs.Text.Cut

/-!
# A line is its first words

A line is taken apart into words at once, and whatever it is read as depends on
its words alone; of these, on eight at the most, since the longest definition
has no place behind the eighth. The line itself is kept for one purpose only:
a fault may quote it.

So two lines with the same first eight words are *alike* (`Alike`). They are
read as the same statement, or refused for the same reason, up to the quoted
content. White space at the end of a line, and a carriage return there in
particular, makes no difference at all.
-/

namespace CanCatalog

/-- A fault without the line that it quotes. -/
def Fault.withoutContent : Fault → Fault
  | strayLine _ => strayLine ""
  | tooShort expected found _ => tooShort expected found ""
  | notANumber token => notANumber token
  | badBitField token why => badBitField token why
  | repeatedMessage id => repeatedMessage id
  | repeatedSignal id name => repeatedSignal id name
  | emptyRange name minimum maximum => emptyRange name minimum maximum

namespace Statement

/-- **Two lines are alike** if their first eight words are the same. -/
def Alike (a b : List Char) : Prop :=
  (Text.words a).take 8 = (Text.words b).take 8

/-! ## The words that are looked at -/

theorem ofMessageWords_take (line : List Char) (tokens : List (List Char)) :
    ofMessageWords line (tokens.take 8) = ofMessageWords line tokens := by
  rcases tokens with _ | ⟨_, _ | ⟨_, _ | ⟨_, _ | ⟨_, _ | ⟨_, _⟩⟩⟩⟩⟩ <;> rfl

theorem isMultiplexed_take (tokens : List (List Char)) :
    isMultiplexed (tokens.take 8) = isMultiplexed tokens := by
  rcases tokens with _ | ⟨_, _ | ⟨_, _ | ⟨_, _ | ⟨_, _⟩⟩⟩⟩ <;> rfl

theorem ofSignalLine_take (line : List Char) (tokens : List (List Char)) :
    ofSignalLine line (tokens.take 8) = ofSignalLine line tokens := by
  unfold ofSignalLine
  rw [isMultiplexed_take]
  rcases tokens with _ | ⟨_, _ | ⟨_, _ | ⟨_, _ | ⟨_, _ | ⟨_, _ | ⟨_, _ | ⟨_,
    _ | ⟨_, _⟩⟩⟩⟩⟩⟩⟩⟩ <;> rfl

/-! ## The line that is quoted -/

theorem ofMessageWords_withoutContent (a b : List Char)
    (tokens : List (List Char)) :
    (ofMessageWords a tokens).mapError Fault.withoutContent
      = (ofMessageWords b tokens).mapError Fault.withoutContent := by
  unfold ofMessageWords
  split <;> rfl

theorem ofSignalLine_withoutContent (a b : List Char)
    (tokens : List (List Char)) :
    (ofSignalLine a tokens).mapError Fault.withoutContent
      = (ofSignalLine b tokens).mapError Fault.withoutContent := by
  unfold ofSignalLine
  split <;> split <;> rfl

/-! ## Lines that are alike -/

theorem Alike.head?_eq {a b : List Char} (h : Alike a b) :
    (Text.words a).head? = (Text.words b).head? := by
  have ha := List.head?_take (l := Text.words a) (i := 8)
  have hb := List.head?_take (l := Text.words b) (i := 8)
  rw [if_neg (by decide)] at ha hb
  rw [← ha, ← hb, h]

/-- **Lines that are alike are read alike**, up to the line that a fault
quotes. -/
theorem Alike.ofLine_eq {a b : List Char} (h : Alike a b) (messageOpen : Bool) :
    (ofLine messageOpen a).mapError Fault.withoutContent
      = (ofLine messageOpen b).mapError Fault.withoutContent := by
  have hmessage := ofMessageWords_withoutContent a b (Text.words b)
  have hsignal := ofSignalLine_withoutContent a b (Text.words b)
  rw [← ofMessageWords_take a, ← h, ofMessageWords_take] at hmessage
  rw [← ofSignalLine_take a, ← h, ofSignalLine_take] at hsignal
  cases hb : Text.words b with
  | nil =>
    have ha : Text.words a = [] := by
      have hhead := h.head?_eq
      rw [hb] at hhead
      exact List.head?_eq_none_iff.1 hhead
    simp only [ofLine, ha, hb]
  | cons keyword rest =>
    obtain ⟨rest', ha⟩ : ∃ rest', Text.words a = keyword :: rest' := by
      have hhead := h.head?_eq
      rw [hb] at hhead
      exact List.head?_eq_some_iff.1 hhead
    rw [ha, hb] at hmessage hsignal
    simp only [ofLine, ha, hb]
    split
    · exact Except.mapError_map_congr _ hmessage
    · split
      · split
        · exact Except.mapError_map_congr _ hsignal
        · rfl
      · rfl

/-- Lines that are alike state the same. -/
theorem Alike.ofLine_eq_ok_iff {a b : List Char} (h : Alike a b)
    {messageOpen : Bool} {st : Statement} :
    ofLine messageOpen a = .ok st ↔ ofLine messageOpen b = .ok st := by
  rw [← Except.mapError_eq_ok_iff (f := Fault.withoutContent), h.ofLine_eq,
    Except.mapError_eq_ok_iff]

end Statement

/-! ## White space at the end of a line -/

namespace Text

/-- A carriage return at the end of a line is part of no word. -/
theorem words_withoutReturn (line : List Char) :
    words (Lines.withoutReturn '\r' line) = words line := by
  unfold Lines.withoutReturn
  split
  · next h =>
    obtain ⟨front, rfl⟩ := List.getLast?_eq_some_iff.1 (beq_iff_eq.1 h)
    rw [List.dropLast_concat, words_append_blank (by decide) front [],
      words_nil, List.append_nil]
  · rfl

/-- Whichever way a line is ended, it is read with its words. -/
theorem EndedLine.words_seen (line : EndedLine) :
    words line.seen = words line.content := by
  unfold EndedLine.seen
  split
  · exact words_withoutReturn line.content
  · rfl

end Text

end CanCatalog
