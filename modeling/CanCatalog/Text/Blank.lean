/-!
# White space

Lines are cut into words at white space, and numbers may have white space
around them inside of a bracket. White space is meant in the wide sense of the
Unicode property `White_Space`: the blank and the ASCII controls from the tab to
the carriage return, but also the next-line control, the no-break space and
the spaces of typography. A byte order mark and a zero-width space are not
among them.
-/

namespace CanCatalog.Text

/-- The ranges of code points with the property `White_Space`, both ends
included. -/
def blankRanges : List (Nat × Nat) :=
  [(0x09, 0x0D), (0x20, 0x20), (0x85, 0x85), (0xA0, 0xA0), (0x1680, 0x1680),
   (0x2000, 0x200A), (0x2028, 0x2029), (0x202F, 0x202F), (0x205F, 0x205F),
   (0x3000, 0x3000)]

/-- Whether a character is white space. -/
def isBlank (c : Char) : Bool :=
  blankRanges.any fun (first, last) => decide (first ≤ c.toNat ∧ c.toNat ≤ last)

/-! ## Words -/

/-- **Where a list is cut at its separators, no piece contains one.** -/
theorem not_of_mem_piece {α : Type} {p : α → Bool} {xs piece : List α}
    (h : piece ∈ xs.splitOnP p) : ∀ x ∈ piece, p x = false := by
  induction xs generalizing piece with
  | nil =>
    rw [List.splitOnP_nil, List.mem_singleton] at h
    subst h
    exact fun x hx => absurd hx List.not_mem_nil
  | cons a xs ih =>
    rw [List.splitOnP_cons_eq_if_modifyHead] at h
    split at h
    · rcases List.mem_cons.1 h with rfl | h
      · exact fun x hx => absurd hx List.not_mem_nil
      · exact ih h
    · next ha =>
      obtain ⟨first, rest, hp⟩ :=
        List.exists_cons_of_ne_nil (List.splitOnP_ne_nil p xs)
      rw [hp, List.modifyHead_cons] at h
      rcases List.mem_cons.1 h with rfl | h
      · intro x hx
        rcases List.mem_cons.1 hx with rfl | hx
        · exact Bool.eq_false_iff.2 ha
        · exact ih (hp ▸ List.mem_cons_self) x hx
      · exact ih (hp ▸ List.mem_cons_of_mem _ h)

/-- **The words of a text**: its longest pieces without white space, in
order. -/
def words (text : List Char) : List (List Char) :=
  (text.splitOnP isBlank).filter fun word => !word.isEmpty

@[simp] theorem words_nil : words [] = [] := by decide

/-- **A word is not empty and contains no white space.** -/
theorem mem_words {text word : List Char} (h : word ∈ words text) :
    word ≠ [] ∧ ∀ c ∈ word, isBlank c = false := by
  obtain ⟨hmem, hne⟩ := List.mem_filter.1 h
  refine ⟨?_, not_of_mem_piece hmem⟩
  rintro rfl
  exact absurd hne (by decide)

/-- **White space divides words**: the words before it and the words behind it
are the words of the whole. -/
theorem words_append_blank {c : Char} (hc : isBlank c = true)
    (front back : List Char) :
    words (front ++ c :: back) = words front ++ words back := by
  unfold words
  rw [List.splitOnP_append_cons front back hc, List.filter_append]

/-- White space at the front belongs to no word. -/
theorem words_cons_of_isBlank {c : Char} (hc : isBlank c = true)
    (text : List Char) : words (c :: text) = words text :=
  words_append_blank hc [] text

/-- Text without white space is one word, or none if it is empty. -/
theorem words_of_forall_not_isBlank {word : List Char} (hne : word ≠ [])
    (h : ∀ c ∈ word, isBlank c = false) : words word = [word] := by
  unfold words
  rw [List.splitOnP_eq_singleton h]
  cases word with
  | nil => exact absurd rfl hne
  | cons c word => rfl

/-- The text without the white space at its two ends. -/
def trim (text : List Char) : List Char :=
  ((text.dropWhile isBlank).reverse.dropWhile isBlank).reverse

end CanCatalog.Text
