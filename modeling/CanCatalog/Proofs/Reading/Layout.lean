import CanCatalog.Proofs.Reading.Prefix

/-!
# Layout

How a line is laid out is of no consequence. Only its words are looked at, and
of these eight at the most; so a text may be aligned with tabs or with blanks,
its lines may be ended in one way or the other, and comments may stand behind a
definition. The outcome is the same catalogue, or the same error. There is one
trace of the layout: an error may quote its line, and it quotes the line as it
was written (`AgreeButQuotes`).

What has to be said about a change of layout is therefore only that the lines of
the two texts are alike, one by one. A change that is described by a place in
the text affects one line, and this is the one that stands at the place: what is
before it up to a line feed and behind it up to the next one. If there is no line
feed before it, the line is the first, and what is looked at is without a byte
order mark (`lineBehind`).
-/

namespace CanCatalog

/-- **Two outcomes agree but for what is quoted**: both are the same catalogue,
or both are errors that are the same without the line they quote. -/
def AgreeButQuotes (a b : Except ReadError Catalog) : Prop :=
  (∃ c, a = .ok c ∧ b = .ok c)
    ∨ ∃ e e', a = .error e ∧ b = .error e'
      ∧ e.withoutContent = e'.withoutContent

/-- Outcomes agree if they are the same once nothing is quoted. -/
theorem agreeButQuotes_of_mapError {a b : Except ReadError Catalog}
    (h : a.mapError ReadError.withoutContent
      = b.mapError ReadError.withoutContent) : AgreeButQuotes a b := by
  cases a with
  | ok c => exact .inl ⟨c, rfl, Except.mapError_eq_ok_iff.1 h.symm⟩
  | error e =>
    cases b with
    | ok c => exact absurd h (by simp)
    | error e' => exact .inr ⟨e, e', rfl, rfl, Except.error.inj h⟩

namespace Reading

open Statement (Alike)

/-! ## Texts with lines that are alike -/

/-- **Texts with lines that are alike have outcomes that agree.** -/
theorem agree_of_forall₂_alike (o : Options) {text other : List Char}
    (h : List.Forall₂ Alike (linesOf text) (linesOf other)) :
    AgreeButQuotes (ofText o text).outcome (ofText o other).outcome := by
  refine agreeButQuotes_of_mapError ?_
  rw [outcome_ofText, outcome_ofText]
  exact Except.mapError_map_congr _
    (Progress.Coherent.readLines_alike h Progress.coherent_start)

/-- Lines are alike one by one if they are the same. -/
theorem forall₂_alike_refl (lines : List (List Char)) :
    List.Forall₂ Alike lines lines :=
  List.forall₂_same.2 fun _ _ => rfl

/-- A carriage return at the end is part of no word of a line, wherever the line
stands. -/
theorem words_lineBehind_withoutReturn (front line : List Char) :
    Text.words (lineBehind front (Text.Lines.withoutReturn '\r' line))
      = Text.words (lineBehind front line) := by
  unfold lineBehind
  split
  · rw [withoutMark_withoutReturn, Text.words_withoutReturn]
  · exact Text.words_withoutReturn line

/-- **A line may be replaced by one that is alike.** -/
theorem forall₂_alike_replace {front a b back : List Char}
    (hended : front = [] ∨ front.getLast? = some '\n')
    (ha : '\n' ∉ a) (hb : '\n' ∉ b) (hane : a ≠ []) (hbne : b ≠ [])
    (hback : back = [] ∨ ∃ rest, back = '\n' :: rest)
    (h : Alike (lineBehind front a) (lineBehind front b)) :
    List.Forall₂ Alike (linesOf (front ++ (a ++ back)))
      (linesOf (front ++ (b ++ back))) := by
  rw [linesOf_append_ended hended, linesOf_append_ended hended]
  refine List.rel_append (forall₂_alike_refl _) ?_
  rcases hback with rfl | ⟨rest, rfl⟩
  · rw [List.append_nil, List.append_nil, linesBehind_of_not_mem front ha hane,
      linesBehind_of_not_mem front hb hbne]
    exact .cons h .nil
  · rw [linesBehind_append_cons front ha, linesBehind_append_cons front hb]
    refine .cons ?_ (forall₂_alike_refl _)
    unfold Alike
    rw [words_lineBehind_withoutReturn, words_lineBehind_withoutReturn]
    exact h

/-! ## Line ends -/

/-- **A text with a carriage return before every line feed.** -/
def withReturns (text : List Char) : List Char :=
  text.flatMap fun c => if c = '\n' then ['\r', '\n'] else [c]

/-- Where no line ends nothing is added. -/
theorem withReturns_of_not_mem {text : List Char} (h : '\n' ∉ text) :
    withReturns text = text := by
  induction text with
  | nil => rfl
  | cons c text ih =>
    obtain ⟨hc, htext⟩ := not_or.1 (mt List.mem_cons.2 h)
    have hrest := ih htext
    unfold withReturns at hrest ⊢
    rw [List.flatMap_cons, if_neg fun heq => hc heq.symm, hrest]
    rfl

/-- The end of the first line is changed, and then the others are. -/
theorem withReturns_append_cons {line : List Char} (h : '\n' ∉ line)
    (rest : List Char) :
    withReturns (line ++ '\n' :: rest)
      = (line ++ ['\r']) ++ '\n' :: withReturns rest := by
  have hline := withReturns_of_not_mem h
  unfold withReturns at hline ⊢
  rw [List.flatMap_append, hline, List.flatMap_cons, List.append_assoc]
  rfl

/-- Lines that are alike, with their byte order marks and without. -/
def AlikeAnywhere (a b : List Char) : Prop :=
  Alike a b ∧ Alike (withoutMark a) (withoutMark b)

/-- **How lines are ended** is not seen in their words. -/
theorem forall₂_withReturns (text : List Char) :
    List.Forall₂ AlikeAnywhere (Text.Lines.ofChars text).toList
      (Text.Lines.ofChars (withReturns text)).toList := by
  unfold Text.Lines.ofChars
  induction text using Text.Lines.line_induction '\n' with
  | rest text h =>
    rw [withReturns_of_not_mem h]
    exact List.forall₂_same.2 fun _ _ => ⟨rfl, rfl⟩
  | line line rest h ih =>
    have hreturn : '\n' ∉ line ++ ['\r'] := by simpa using h
    rw [withReturns_append_cons h, Text.Lines.toList_cut_append_cons h,
      Text.Lines.toList_cut_append_cons hreturn,
      Text.Lines.withoutReturn_concat]
    refine .cons ⟨?_, ?_⟩ ih
    · unfold Alike
      rw [Text.words_withoutReturn]
    · unfold Alike
      rw [withoutMark_withoutReturn, Text.words_withoutReturn]

/-- The first lines are alike without their byte order marks too. -/
theorem forall₂_alike_modifyHead {as bs : List (List Char)}
    (h : List.Forall₂ AlikeAnywhere as bs) :
    List.Forall₂ Alike (as.modifyHead withoutMark)
      (bs.modifyHead withoutMark) := by
  cases h with
  | nil => exact .nil
  | cons hhead hrest => exact .cons hhead.2 (hrest.imp fun _ _ h => h.1)

/-! ## A change inside of a line -/

/-- A line begins in the same way whatever is set apart behind it. -/
theorem lineBehind_append (front : List Char) {line back : List Char}
    (hback : Text.SetApart back) :
    lineBehind front (line ++ back) = lineBehind front line ++ back := by
  unfold lineBehind
  split
  · cases back with
    | nil => rw [List.append_nil, List.append_nil]
    | cons c back =>
      refine withoutMark_append_cons ?_ line back
      rintro rfl
      exact absurd (hback _ rfl) (by decide)
  · rfl

/-- **One gap is as good as another.** -/
theorem words_lineBehind_gap (front line : List Char) {gap : List Char}
    (h : Text.IsGap gap) (back : List Char) :
    Text.words (lineBehind front (line ++ (gap ++ back)))
      = Text.words (lineBehind front line) ++ Text.words back := by
  rw [lineBehind_append front (h.setApart_append back), h.words_append]

/-- **Behind eight words nothing is looked at.** -/
theorem alike_lineBehind_append {front line : List Char}
    (h : 8 ≤ (Text.words (lineBehind front line)).length) {back : List Char}
    (hback : Text.SetApart back) :
    Alike (lineBehind front (line ++ back)) (lineBehind front line) := by
  unfold Alike
  rw [lineBehind_append front hback, hback.words_append,
    List.take_append_of_le_length h]

/-- The front of what is set apart is set apart. -/
theorem setApart_of_append {piece back : List Char}
    (h : Text.SetApart (piece ++ back)) : Text.SetApart piece := by
  cases piece with
  | nil => exact fun c hc => absurd hc (by simp)
  | cons c piece => exact h

/-- **A gap may be replaced by another one**, wherever it stands. -/
theorem forall₂_alike_gap (front back : List Char) {gap other : List Char}
    (hgap : Text.IsGap gap) (hother : Text.IsGap other) :
    List.Forall₂ Alike (linesOf (front ++ gap ++ back))
      (linesOf (front ++ other ++ back)) := by
  obtain ⟨ended, begun, rfl, hbegun, hended⟩ :=
    Text.Lines.exists_ended_append '\n' front
  obtain ⟨piece, rest, rfl, hpiece, hrest⟩ :=
    Text.Lines.exists_append_feed '\n' back
  have hline : ∀ {gap : List Char}, Text.IsGap gap →
      '\n' ∉ begun ++ (gap ++ piece) ∧ begun ++ (gap ++ piece) ≠ [] := by
    intro gap h
    constructor
    · simp [hbegun, h.not_mem, hpiece]
    · simp [h.ne_nil]
  have hassoc : ∀ gap : List Char, ended ++ begun ++ gap ++ (piece ++ rest)
      = ended ++ ((begun ++ (gap ++ piece)) ++ rest) := by
    intro gap
    simp only [List.append_assoc]
  rw [hassoc, hassoc]
  refine forall₂_alike_replace hended (hline hgap).1 (hline hother).1
    (hline hgap).2 (hline hother).2 hrest ?_
  unfold Alike
  rw [words_lineBehind_gap ended begun hgap,
    words_lineBehind_gap ended begun hother]

/-- **Words may be added to a line of eight words.** -/
theorem forall₂_alike_more {front line more back : List Char}
    (hended : front = [] ∨ front.getLast? = some '\n')
    (hline : '\n' ∉ line)
    (hwords : 8 ≤ (Text.words (lineBehind front line)).length)
    (hmore : '\n' ∉ more) (happart : Text.SetApart more)
    (hback : Text.SetApart back) :
    List.Forall₂ Alike (linesOf (front ++ line ++ more ++ back))
      (linesOf (front ++ line ++ back)) := by
  obtain ⟨piece, rest, rfl, hpiece, hrest⟩ :=
    Text.Lines.exists_append_feed '\n' back
  have hpieceApart := setApart_of_append hback
  have hne : line ≠ [] := by
    rintro rfl
    have hnil : lineBehind front [] = [] := ite_self _
    rw [hnil, Text.words_nil] at hwords
    exact absurd hwords (by decide)
  have hlong : front ++ line ++ more ++ (piece ++ rest)
      = front ++ ((line ++ (more ++ piece)) ++ rest) := by
    simp only [List.append_assoc]
  have hshort : front ++ line ++ (piece ++ rest)
      = front ++ ((line ++ piece) ++ rest) := by
    simp only [List.append_assoc]
  rw [hlong, hshort]
  refine forall₂_alike_replace hended (by simp [hline, hmore, hpiece])
    (by simp [hline, hpiece]) (by simp [hne]) (by simp [hne]) hrest ?_
  have hadded := alike_lineBehind_append hwords (happart.append hpieceApart)
  exact hadded.trans (alike_lineBehind_append hwords hpieceApart).symm

/-! ## What makes no difference -/

/-- **The first eight words of a line decide.** Two texts with as many lines, of
which each begins with the same eight words as the other's (or has the same
words, if they are fewer), are read to the same catalogue or are refused with
the same error, up to the line that it quotes. So it makes no difference how the
lines are ended; nor which white space is between two words of a line; nor what
is written behind eight words of a line and set apart from them. -/
theorem eight_words_decide (o : Options) :
    (∀ text other, List.Forall₂ Alike (linesOf text) (linesOf other) →
      AgreeButQuotes (ofText o text).outcome (ofText o other).outcome)
    ∧ (∀ text, AgreeButQuotes (ofText o text).outcome
        (ofText o (withReturns text)).outcome)
    ∧ (∀ front gap other back, Text.IsGap gap → Text.IsGap other →
        AgreeButQuotes (ofText o (front ++ gap ++ back)).outcome
          (ofText o (front ++ other ++ back)).outcome)
    ∧ ∀ front line more back,
        (front = [] ∨ front.getLast? = some '\n') → '\n' ∉ line →
        8 ≤ (Text.words (lineBehind front line)).length →
        '\n' ∉ more → Text.SetApart more → Text.SetApart back →
          AgreeButQuotes (ofText o (front ++ line ++ more ++ back)).outcome
            (ofText o (front ++ line ++ back)).outcome := by
  refine ⟨fun text other h => agree_of_forall₂_alike o h, fun text => ?_,
    fun front gap other back hgap hother => ?_,
    fun front line more back hended hline hwords hmore happart hback => ?_⟩
  · exact agree_of_forall₂_alike o
      (forall₂_alike_modifyHead (forall₂_withReturns text))
  · exact agree_of_forall₂_alike o (forall₂_alike_gap front back hgap hother)
  · exact agree_of_forall₂_alike o
      (forall₂_alike_more hended hline hwords hmore happart hback)

end Reading

end CanCatalog
