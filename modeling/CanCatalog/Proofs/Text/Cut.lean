import CanCatalog.Text.Lines

/-!
# Texts as sequences of lines

A text either holds no line feed, and then it is at most one line, or it is a
line, a line feed and a shorter text. This is how a text is taken apart
everywhere below, and `line_induction` is the induction that goes with it: the
lines of a text are found one after the other, and no position in the text is
ever mentioned.

Two facts are wanted of it. A text that ends with a line feed can be continued
and its lines remain what they were. And lines that are written one under the
other are read back, whichever way each of them is ended – except that a line
feed also takes away a carriage return which is meant to be in the line.
-/

namespace CanCatalog.Text

/-- **Lines written one under the other**, each of them ended. -/
def endEach (lines : List (List Char)) : List Char :=
  lines.flatMap (· ++ ['\n'])

/-- **How a line is ended**: by a line feed, with a carriage return before it or
without one. -/
inductive LineEnd where
  /-- A line feed. -/
  | feed
  /-- A carriage return and a line feed. -/
  | returnFeed

/-- The characters that end a line. -/
def LineEnd.chars : LineEnd → List Char
  | feed => ['\n']
  | returnFeed => ['\r', '\n']

/-- **A line with its end.** -/
structure EndedLine where
  /-- What is in the line. -/
  content : List Char
  /-- How it is ended. -/
  ending : LineEnd

/-- The characters of a line and its end. -/
def EndedLine.text (line : EndedLine) : List Char :=
  line.content ++ line.ending.chars

/-- A line as it is read. A carriage return that ends its content goes away
with a line feed behind it. -/
def EndedLine.seen (line : EndedLine) : List Char :=
  match line.ending with
  | .feed => Lines.withoutReturn '\r' line.content
  | .returnFeed => line.content

/-- **Lines written one under the other**, each of them ended in its own
way. -/
def written (lines : List EndedLine) : List Char := lines.flatMap EndedLine.text

namespace Lines

variable {α : Type} [BEq α] [LawfulBEq α] {lineFeed carriageReturn : α}

omit [LawfulBEq α] in
/-- A line begins as it does with its carriage return. -/
theorem withoutReturn_isPrefix (line : List α) :
    withoutReturn carriageReturn line <+: line := by
  unfold withoutReturn
  split
  · exact List.dropLast_prefix line
  · exact List.prefix_refl line

/-- A carriage return at the end is taken off. -/
theorem withoutReturn_concat (line : List α) :
    withoutReturn carriageReturn (line ++ [carriageReturn]) = line := by
  unfold withoutReturn
  rw [List.getLast?_concat, if_pos (beq_self_eq_true _), List.dropLast_concat]

/-- A character in front that is no carriage return is not taken for one. -/
theorem withoutReturn_cons {x : α} (hx : x ≠ carriageReturn) (line : List α) :
    withoutReturn carriageReturn (x :: line)
      = x :: withoutReturn carriageReturn line := by
  unfold withoutReturn
  cases line with
  | nil =>
    have hne : (some x == some carriageReturn) = false :=
      beq_eq_false_iff_ne.2 fun heq => hx (Option.some.inj heq)
    rw [List.getLast?_singleton, hne]
    rfl
  | cons y line =>
    rw [List.getLast?_cons_cons]
    split <;> rfl

/-! ## A text taken apart -/

/-- **Induction along the lines of a text.** -/
theorem line_induction (lineFeed : α) {motive : List α → Prop}
    (rest : ∀ xs, lineFeed ∉ xs → motive xs)
    (line : ∀ line xs, lineFeed ∉ line → motive xs →
      motive (line ++ lineFeed :: xs))
    (xs : List α) : motive xs := by
  by_cases h : lineFeed ∈ xs
  · obtain ⟨front, back, hxs, hfront⟩ := List.eq_append_cons_of_mem h
    have hshorter : back.length < xs.length := by
      rw [hxs, List.length_append, List.length_cons]
      omega
    rw [hxs]
    exact line front back hfront (line_induction lineFeed rest line back)
  · exact rest xs h
termination_by xs.length
decreasing_by exact hshorter

/-- Nothing in a text without a line feed is one. -/
theorem beq_lineFeed_eq_false {xs : List α} (h : lineFeed ∉ xs) :
    ∀ x ∈ xs, (x == lineFeed) = false :=
  fun _ hx => beq_eq_false_iff_ne.2 fun heq => h (heq ▸ hx)

/-- A text without a line feed has no ended line. -/
theorem cut_of_not_mem {xs : List α} (h : lineFeed ∉ xs) :
    cut lineFeed carriageReturn xs = ⟨[], xs⟩ := by
  unfold cut
  rw [List.splitOnP_eq_singleton (beq_lineFeed_eq_false h)]
  rfl

/-- The first line is cut off and the rest is cut as it would be alone. -/
theorem cut_append_cons {line : List α} (h : lineFeed ∉ line) (xs : List α) :
    cut lineFeed carriageReturn (line ++ lineFeed :: xs)
      = ⟨withoutReturn carriageReturn line
            :: (cut lineFeed carriageReturn xs).ended,
          (cut lineFeed carriageReturn xs).rest⟩ := by
  have hne := List.splitOnP_ne_nil (· == lineFeed) xs
  unfold cut
  rw [List.splitOnP_append_cons_of_forall_mem (beq_lineFeed_eq_false h) lineFeed
    (beq_self_eq_true lineFeed)]
  obtain ⟨piece, pieces, hp⟩ := List.exists_cons_of_ne_nil hne
  rw [hp]
  rfl

/-- A text without a line feed is one line, or none if it is empty. -/
theorem toList_cut_of_not_mem {xs : List α} (h : lineFeed ∉ xs) :
    (cut lineFeed carriageReturn xs).toList
      = if xs.isEmpty then [] else [xs] := by
  rw [cut_of_not_mem h]
  rfl

/-- **The lines of a text are its first line and the lines of the rest.** -/
theorem toList_cut_append_cons {line : List α} (h : lineFeed ∉ line)
    (xs : List α) :
    (cut lineFeed carriageReturn (line ++ lineFeed :: xs)).toList
      = withoutReturn carriageReturn line
        :: (cut lineFeed carriageReturn xs).toList := by
  rw [cut_append_cons h]
  rfl

/-- **What is put in front of a text is put in front of its first line**, unless
it is a line end itself or nothing follows it. -/
theorem toList_cut_cons {x : α} (hfeed : x ≠ lineFeed)
    (hreturn : x ≠ carriageReturn) {xs : List α} (hne : xs ≠ []) :
    (cut lineFeed carriageReturn (x :: xs)).toList
      = (cut lineFeed carriageReturn xs).toList.modifyHead (x :: ·) := by
  have hcons : ∀ {ys : List α}, lineFeed ∉ ys → lineFeed ∉ x :: ys :=
    fun hys hmem => (List.mem_cons.1 hmem).elim (fun heq => hfeed heq.symm) hys
  induction xs using line_induction lineFeed with
  | rest xs hxs =>
    rw [toList_cut_of_not_mem hxs, toList_cut_of_not_mem (hcons hxs),
      List.isEmpty_eq_false_iff.2 hne]
    rfl
  | line first xs hfirst _ =>
    rw [← List.cons_append, toList_cut_append_cons hfirst,
      toList_cut_append_cons (hcons hfirst), withoutReturn_cons hreturn]
    rfl

omit [LawfulBEq α] in
/-- What a line without its carriage return contains, the line contains. -/
theorem mem_of_mem_withoutReturn {line : List α} {x : α}
    (h : x ∈ withoutReturn carriageReturn line) : x ∈ line := by
  unfold withoutReturn at h
  split at h
  · exact List.dropLast_subset line h
  · exact h

/-- A text that is not empty has a line. -/
theorem toList_cut_ne_nil {xs : List α} (h : xs ≠ []) :
    (cut lineFeed carriageReturn xs).toList ≠ [] := by
  induction xs using line_induction lineFeed with
  | rest xs hxs =>
    rw [toList_cut_of_not_mem hxs, List.isEmpty_eq_false_iff.2 h]
    exact List.cons_ne_nil _ _
  | line first xs hfirst _ =>
    rw [toList_cut_append_cons hfirst]
    exact List.cons_ne_nil _ _

/-- **A text begins with its first line.** -/
theorem prefix_of_toList_cut {xs first : List α} {rest : List (List α)}
    (h : (cut lineFeed carriageReturn xs).toList = first :: rest) :
    first <+: xs := by
  induction xs using line_induction lineFeed with
  | rest xs hxs =>
    rw [toList_cut_of_not_mem hxs] at h
    split at h
    · exact absurd h (List.cons_ne_nil _ _).symm
    · exact (List.cons.inj h).1 ▸ List.prefix_refl xs
  | line line xs hline _ =>
    rw [toList_cut_append_cons hline] at h
    rw [← (List.cons.inj h).1]
    exact (withoutReturn_isPrefix line).trans (List.prefix_append line _)

/-- A text begins with the character that its first line begins with. -/
theorem head?_of_toList_cut {xs first : List α} {rest : List (List α)}
    (h : (cut lineFeed carriageReturn xs).toList = first :: rest) {x : α}
    (hx : first.head? = some x) : xs.head? = some x := by
  obtain ⟨more, rfl⟩ := prefix_of_toList_cut h
  obtain ⟨tail, rfl⟩ := List.head?_eq_some_iff.1 hx
  rfl

/-- **No line contains a line feed.** -/
theorem not_mem_of_mem_toList_cut (xs : List α) :
    ∀ line ∈ (cut lineFeed carriageReturn xs).toList, lineFeed ∉ line := by
  induction xs using line_induction lineFeed with
  | rest xs h =>
    rw [toList_cut_of_not_mem h]
    intro line hline
    split at hline
    · exact absurd hline List.not_mem_nil
    · rw [List.mem_singleton.1 hline]
      exact h
  | line first xs h ih =>
    rw [toList_cut_append_cons h]
    intro line hline
    rcases List.mem_cons.1 hline with rfl | hline
    · exact fun hmem => h (mem_of_mem_withoutReturn hmem)
    · exact ih line hline

/-- **What a line contains, the text contains.** -/
theorem mem_of_mem_toList_cut {xs line : List α} {x : α}
    (h : line ∈ (cut lineFeed carriageReturn xs).toList) (hx : x ∈ line) :
    x ∈ xs := by
  induction xs using line_induction lineFeed with
  | rest xs hxs =>
    rw [toList_cut_of_not_mem hxs] at h
    split at h
    · exact absurd h List.not_mem_nil
    · exact List.mem_singleton.1 h ▸ hx
  | line first xs hfirst ih =>
    rw [toList_cut_append_cons hfirst] at h
    rcases List.mem_cons.1 h with rfl | h
    · exact List.mem_append_left _ (mem_of_mem_withoutReturn hx)
    · exact List.mem_append_right _ (List.mem_cons_of_mem _ (ih h))

/-! ## Texts taken apart at a place -/

/-- **Before any place in a text** there are ended lines and then the beginning
of a line. -/
theorem exists_ended_append (lineFeed : α) (xs : List α) :
    ∃ front tail, xs = front ++ tail ∧ lineFeed ∉ tail
      ∧ (front = [] ∨ front.getLast? = some lineFeed) := by
  induction xs using line_induction lineFeed with
  | rest xs hxs => exact ⟨[], xs, rfl, hxs, .inl rfl⟩
  | line line xs _ ih =>
    obtain ⟨front, tail, rfl, htail, hended⟩ := ih
    refine ⟨line ++ lineFeed :: front, tail, by simp, htail, .inr ?_⟩
    rcases hended with rfl | hlast
    · exact List.getLast?_concat
    · rw [List.getLast?_append, List.getLast?_cons, hlast]
      rfl

/-- **Behind any place in a text** there is the rest of a line, and then its end
or nothing. -/
theorem exists_append_feed (lineFeed : α) (xs : List α) :
    ∃ piece back, xs = piece ++ back ∧ lineFeed ∉ piece
      ∧ (back = [] ∨ ∃ rest, back = lineFeed :: rest) := by
  by_cases h : lineFeed ∈ xs
  · obtain ⟨piece, rest, rfl, hpiece⟩ := List.eq_append_cons_of_mem h
    exact ⟨piece, lineFeed :: rest, rfl, hpiece, .inr ⟨rest, rfl⟩⟩
  · exact ⟨xs, [], (List.append_nil xs).symm, h, .inl rfl⟩

/-! ## Texts put together -/

/-- **An ended text can be continued**: its lines remain ended, and the
continuation is cut as it would be alone. -/
theorem cut_append (xs ys : List α)
    (h : xs = [] ∨ xs.getLast? = some lineFeed) :
    cut lineFeed carriageReturn (xs ++ ys)
      = ⟨(cut lineFeed carriageReturn xs).ended
            ++ (cut lineFeed carriageReturn ys).ended,
          (cut lineFeed carriageReturn ys).rest⟩ := by
  induction xs using line_induction lineFeed with
  | rest xs hxs =>
    rcases h with rfl | h
    · rw [cut_of_not_mem hxs]
      rfl
    · exact absurd (List.mem_of_getLast? h) hxs
  | line first xs hfirst ih =>
    have hxs : xs = [] ∨ xs.getLast? = some lineFeed := by
      cases xs with
      | nil => exact .inl rfl
      | cons x xs =>
        refine .inr ?_
        rcases h with h | h
        · exact absurd h (by simp)
        · simpa using h
    rw [List.append_assoc, List.cons_append, cut_append_cons hfirst,
      cut_append_cons hfirst, ih hxs, List.cons_append]

/-- Behind the last line of an ended text there is nothing. -/
theorem rest_cut_eq_nil {xs : List α}
    (h : xs = [] ∨ xs.getLast? = some lineFeed) :
    (cut lineFeed carriageReturn xs).rest = [] := by
  rw [← List.append_nil xs, cut_append xs [] h,
    cut_of_not_mem List.not_mem_nil]

/-- All lines of an ended text are ended. -/
theorem toList_cut_eq_ended {xs : List α}
    (h : xs = [] ∨ xs.getLast? = some lineFeed) :
    (cut lineFeed carriageReturn xs).toList
      = (cut lineFeed carriageReturn xs).ended := by
  unfold toList
  rw [rest_cut_eq_nil h]
  exact List.append_nil _

/-- The lines of an ended text are followed by those of its continuation. -/
theorem toList_cut_append (xs ys : List α)
    (h : xs = [] ∨ xs.getLast? = some lineFeed) :
    (cut lineFeed carriageReturn (xs ++ ys)).toList
      = (cut lineFeed carriageReturn xs).toList
        ++ (cut lineFeed carriageReturn ys).toList := by
  rw [toList_cut_eq_ended h]
  unfold toList
  rw [cut_append xs ys h, List.append_assoc]

/-- **Lines are read back as they were written**, each in its own way, except
for a carriage return that a line feed takes away. -/
theorem toList_ofChars_written {lines : List EndedLine}
    (h : ∀ line ∈ lines, '\n' ∉ line.content) :
    (ofChars (written lines)).toList = lines.map EndedLine.seen := by
  induction lines with
  | nil => rfl
  | cons line lines ih =>
    obtain ⟨hline, hlines⟩ := List.forall_mem_cons.1 h
    have hrest := ih hlines
    obtain ⟨content, ending⟩ := line
    unfold ofChars at hrest ⊢
    cases ending with
    | feed =>
      have hsplit : written (⟨content, .feed⟩ :: lines)
          = content ++ '\n' :: written lines := by
        simp [written, EndedLine.text, LineEnd.chars]
      rw [hsplit, toList_cut_append_cons hline, hrest]
      rfl
    | returnFeed =>
      have hsplit : written (⟨content, .returnFeed⟩ :: lines)
          = (content ++ ['\r']) ++ '\n' :: written lines := by
        simp [written, EndedLine.text, LineEnd.chars]
      have hnot : '\n' ∉ content ++ ['\r'] := by
        simpa using hline
      rw [hsplit, toList_cut_append_cons hnot, hrest, withoutReturn_concat]
      rfl

/-- Lines that are all ended by a line feed alone lose a carriage return
each. -/
theorem toList_ofChars_endEach {lines : List (List Char)}
    (h : ∀ line ∈ lines, '\n' ∉ line) :
    (ofChars (endEach lines)).toList = lines.map (withoutReturn '\r') := by
  have hwritten : endEach lines
      = written (lines.map fun line => ⟨line, .feed⟩) := by
    unfold endEach written
    rw [List.flatMap_map]
    rfl
  rw [hwritten, toList_ofChars_written, List.map_map]
  · rfl
  · rintro _ hmem
    obtain ⟨line, hline, rfl⟩ := List.mem_map.1 hmem
    exact h line hline

end Lines

end CanCatalog.Text
