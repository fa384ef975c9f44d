import CanCatalog.Proofs.Text.Cut

/-!
# Texts with lines taken out and put in

To take a line out of a text is to take it out with its end; otherwise an empty
line would remain. So a text is made of *raw lines* here, which are its lines
together with their line feeds. The last of them has no line feed if the text does
not end with one.

A text is revised by taking raw lines out and by putting lines in before raw
lines. Its lines are then those that were left and those that were put in, at
their places (`Lines.toList_ofChars_revise`). A line that is left is not changed
by what happens around it: whatever is put in is ended, and so no line is
lengthened by its neighbours.
-/

namespace CanCatalog.Text

/-- **The lines of a text with their ends.** -/
def rawLines : List Char → List (List Char)
  | [] => []
  | c :: text =>
    if c = '\n' then [c] :: rawLines text
    else match rawLines text with
      | [] => [[c]]
      | line :: rest => (c :: line) :: rest

/-- **A text with lines taken out and put in**: the line at position `i`, counted
from zero, is taken out if `drop i` says so, and the lines of `gap i` are put in
before it. -/
def revise (drop : Nat → Bool) (gap : Nat → List (List Char))
    (text : List Char) : List Char :=
  ((rawLines text).mapIdx fun i line =>
    endEach (gap i) ++ if drop i then [] else line).flatten

/-- The first raw line is the first line and its line feed. -/
theorem rawLines_append_cons {line : List Char} (h : '\n' ∉ line)
    (text : List Char) :
    rawLines (line ++ '\n' :: text) = (line ++ ['\n']) :: rawLines text := by
  induction line with
  | nil => rfl
  | cons c line ih =>
    obtain ⟨hc, hline⟩ := List.ne_and_not_mem_of_not_mem_cons h
    rw [List.cons_append, rawLines, if_neg hc.symm, ih hline]
    rfl

/-- A text without a line feed is one raw line, unless it is empty. -/
theorem rawLines_of_not_mem {text : List Char} (h : '\n' ∉ text) :
    rawLines text = if text.isEmpty then [] else [text] := by
  induction text with
  | nil => rfl
  | cons c text ih =>
    obtain ⟨hc, htext⟩ := List.ne_and_not_mem_of_not_mem_cons h
    rw [rawLines, if_neg hc.symm, ih htext]
    cases text <;> rfl

/-- Ended texts one behind the other are an ended text. -/
theorem ended_append {front back : List Char}
    (hfront : front = [] ∨ front.getLast? = some '\n')
    (hback : back = [] ∨ back.getLast? = some '\n') :
    front ++ back = [] ∨ (front ++ back).getLast? = some '\n' := by
  rcases hback with rfl | hback
  · rwa [List.append_nil]
  · refine .inr ?_
    rw [List.getLast?_append, hback]
    rfl

/-- Lines that are each ended are an ended text. -/
theorem ended_endEach (lines : List (List Char)) :
    endEach lines = [] ∨ (endEach lines).getLast? = some '\n' := by
  induction lines with
  | nil => exact .inl rfl
  | cons line lines ih =>
    exact ended_append (.inr List.getLast?_concat) ih

variable {drop : Nat → Bool} {gap : Nat → List (List Char)}

/-- **What a raw line is revised to is ended** if the line is. -/
theorem ended_revised (i : Nat) (line : List Char) :
    (endEach (gap i) ++ if drop i then [] else line ++ ['\n']) = []
      ∨ (endEach (gap i) ++ if drop i then [] else line ++ ['\n']).getLast?
        = some '\n' := by
  refine ended_append (ended_endEach (gap i)) ?_
  split
  · exact .inl rfl
  · exact .inr List.getLast?_concat

/-- A revised text is its first line, revised, and the rest, revised by what is
left of the directions. -/
theorem revise_append_cons {line : List Char} (h : '\n' ∉ line)
    (text : List Char) :
    revise drop gap (line ++ '\n' :: text)
      = (endEach (gap 0) ++ if drop 0 then [] else line ++ ['\n'])
        ++ revise (fun i => drop (i + 1)) (fun i => gap (i + 1)) text := by
  unfold revise
  rw [rawLines_append_cons h, List.mapIdx_cons, List.flatten_cons]

/-- A text without a line feed is revised as its only line. -/
theorem revise_of_not_mem {text : List Char} (h : '\n' ∉ text)
    (hne : text ≠ []) :
    revise drop gap text
      = endEach (gap 0) ++ if drop 0 then [] else text := by
  unfold revise
  rw [rawLines_of_not_mem h, List.isEmpty_eq_false_iff.2 hne]
  exact List.append_nil _

/-- **An ended text is still ended** when it has been revised, or it is empty. -/
theorem ended_revise {text : List Char}
    (h : text = [] ∨ text.getLast? = some '\n') :
    revise drop gap text = []
      ∨ (revise drop gap text).getLast? = some '\n' := by
  induction text using Lines.line_induction '\n' generalizing drop gap with
  | rest text htext =>
    rcases h with rfl | h
    · exact .inl rfl
    · exact absurd (List.mem_of_getLast? h) htext
  | line line text hline ih =>
    have hrest : text = [] ∨ text.getLast? = some '\n' := by
      cases text with
      | nil => exact .inl rfl
      | cons c text => exact .inr (by simpa using h)
    rw [revise_append_cons hline]
    exact ended_append (ended_revised 0 line) (ih hrest)

namespace Lines

/-- **The lines of a revised text** are the lines that were left, behind those
that were put in before them. -/
theorem toList_ofChars_revise
    (hgap : ∀ i, ∀ line ∈ gap i, '\n' ∉ line) (text : List Char) :
    (ofChars (revise drop gap text)).toList
      = ((ofChars text).toList.mapIdx fun i line =>
          (gap i).map (withoutReturn '\r')
            ++ if drop i then [] else [line]).flatten := by
  have happend : ∀ front back,
      (front = [] ∨ front.getLast? = some '\n')
      → (ofChars (front ++ back)).toList
        = (ofChars front).toList ++ (ofChars back).toList :=
    fun front back h => toList_cut_append front back h
  induction text using line_induction '\n' generalizing drop gap with
  | rest text htext =>
    by_cases hne : text = []
    · subst hne
      rfl
    · have hlines : (ofChars text).toList = [text] := by
        refine (toList_cut_of_not_mem htext).trans ?_
        rw [List.isEmpty_eq_false_iff.2 hne]
        rfl
      rw [revise_of_not_mem htext hne, happend _ _ (ended_endEach _),
        toList_ofChars_endEach (hgap 0), hlines, List.mapIdx_cons,
        List.mapIdx_nil, List.flatten_singleton]
      split
      · rfl
      · rw [hlines]
  | line line text hline ih =>
    have hlines : (ofChars (line ++ '\n' :: text)).toList
        = withoutReturn '\r' line :: (ofChars text).toList :=
      toList_cut_append_cons hline text
    have hone : (ofChars (line ++ ['\n'])).toList
        = [withoutReturn '\r' line] :=
      toList_cut_append_cons hline []
    rw [revise_append_cons hline, happend _ _ (ended_revised 0 line),
      happend _ _ (ended_endEach _), toList_ofChars_endEach (hgap 0), hlines,
      List.mapIdx_cons, List.flatten_cons, ih fun i => hgap (i + 1)]
    split
    · rfl
    · rw [hone]

end Lines

end CanCatalog.Text
