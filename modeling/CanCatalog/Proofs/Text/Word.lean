import CanCatalog.Text.Blank

/-!
# Words

A word is a text without white space that is not empty. What a line is cut into
are words, and so the names in a catalogue are. The name of a message is almost
one: a colon is taken off it, and nothing may be left.

Where white space is not what divides words it is taken off the ends of a text. It
is said here what is left then (`IsTrimmed`), without saying how it is found.
-/

namespace CanCatalog.Text

/-- No white space is in a text. -/
def IsSolid (text : List Char) : Prop := ∀ c ∈ text, isBlank c = false

/-- **A word**: text without white space that is not empty. -/
def IsWord (text : List Char) : Prop := text ≠ [] ∧ IsSolid text

instance (text : List Char) : Decidable (IsSolid text) :=
  decidable_of_iff ((text.all fun c => !isBlank c) = true) (by simp [IsSolid])

instance (text : List Char) : Decidable (IsWord text) :=
  decidable_of_iff ((!text.isEmpty && text.all fun c => !isBlank c) = true)
    (by simp [IsWord, IsSolid])

/-- **A text is cut into words.** -/
theorem isWord_of_mem_words {text word : List Char} (h : word ∈ words text) :
    IsWord word := mem_words h

/-- Part of a text without white space has none. -/
theorem IsSolid.of_subset {part text : List Char} (h : IsSolid text)
    (hsub : part ⊆ text) : IsSolid part :=
  fun c hc => h c (hsub hc)

theorem IsSolid.cons {c : Char} {text : List Char} (hc : isBlank c = false)
    (h : IsSolid text) : IsSolid (c :: text) :=
  List.forall_mem_cons.2 ⟨hc, h⟩

theorem IsSolid.append {front back : List Char} (hfront : IsSolid front)
    (hback : IsSolid back) : IsSolid (front ++ back) :=
  List.forall_mem_append.2 ⟨hfront, hback⟩

theorem IsSolid.ofList {text : List Char} (h : IsSolid text) :
    IsSolid (String.ofList text).toList := by
  rwa [String.toList_ofList]

theorem IsWord.ofList {word : List Char} (h : IsWord word) :
    IsWord (String.ofList word).toList := by
  rwa [String.toList_ofList]

/-! ## White space around a text -/

/-- **What is left of a text without the white space around it**: the text is white
space, then what is left, then white space again, and what is left neither begins
nor ends with any. -/
structure IsTrimmed (text core : List Char) : Prop where
  /-- There is nothing but white space around it. -/
  around : ∃ front back, (∀ c ∈ front, isBlank c = true)
    ∧ (∀ c ∈ back, isBlank c = true) ∧ text = front ++ (core ++ back)
  /-- It does not begin with white space. -/
  head : ∀ c, core.head? = some c → isBlank c = false
  /-- It does not end with white space. -/
  last : ∀ c, core.getLast? = some c → isBlank c = false

/-- White space is taken off the front as far as it goes. -/
theorem dropWhile_isBlank_append {front rest : List Char}
    (hfront : ∀ c ∈ front, isBlank c = true)
    (hrest : ∀ c, rest.head? = some c → isBlank c = false) :
    (front ++ rest).dropWhile isBlank = rest := by
  rw [List.dropWhile_append_of_pos hfront]
  cases rest with
  | nil => rfl
  | cons c rest =>
    exact List.dropWhile_cons_of_neg (Bool.eq_false_iff.1 (hrest c rfl))

/-- What is taken off the front is white space. -/
theorem exists_append_dropWhile_isBlank (text : List Char) :
    ∃ front, (∀ c ∈ front, isBlank c = true)
      ∧ text = front ++ text.dropWhile isBlank :=
  ⟨text.takeWhile isBlank, List.all_eq_true.1 List.all_takeWhile,
    List.takeWhile_append_dropWhile.symm⟩

/-- What is left when white space has been taken off the front does not begin with
any. -/
theorem isBlank_of_head?_dropWhile {text : List Char} {c : Char}
    (h : (text.dropWhile isBlank).head? = some c) : isBlank c = false := by
  have hnot := List.head?_dropWhile_not isBlank text
  rwa [h] at hnot

/-- **White space is taken off both ends**, all of it and nothing else. -/
theorem isTrimmed_trim (text : List Char) : IsTrimmed text (trim text) := by
  obtain ⟨front, hfront, htext⟩ := exists_append_dropWhile_isBlank text
  obtain ⟨back, hback, hrest⟩ :=
    exists_append_dropWhile_isBlank (text.dropWhile isBlank).reverse
  have hsplit : text.dropWhile isBlank = trim text ++ back.reverse := by
    rw [← List.reverse_reverse (text.dropWhile isBlank), hrest,
      List.reverse_append]
    rfl
  refine ⟨⟨front, back.reverse, hfront,
    fun c hc => hback c (List.mem_reverse.1 hc), hsplit ▸ htext⟩,
    fun c hc => ?_, fun c hc => ?_⟩
  · have hhead : (text.dropWhile isBlank).head? = some c := by
      rw [hsplit, List.head?_append, hc]
      rfl
    exact isBlank_of_head?_dropWhile hhead
  · rw [trim, List.getLast?_reverse] at hc
    exact isBlank_of_head?_dropWhile hc

/-- **What is left of a text is determined.** -/
theorem IsTrimmed.trim_eq {text core : List Char} (h : IsTrimmed text core) :
    trim text = core := by
  obtain ⟨front, back, hfront, hback, rfl⟩ := h.around
  have hreverse : ∀ c ∈ back.reverse, isBlank c = true :=
    fun c hc => hback c (List.mem_reverse.1 hc)
  have hlast : ∀ c, core.reverse.head? = some c → isBlank c = false := by
    intro c hc
    rw [List.head?_reverse] at hc
    exact h.last c hc
  unfold trim
  by_cases hcore : core = []
  · -- white space alone, which does not fall into two parts
    have hall : ∀ c ∈ front ++ back, isBlank c = true :=
      List.forall_mem_append.2 ⟨hfront, hback⟩
    rw [hcore, List.nil_append, ← List.append_nil (front ++ back),
      dropWhile_isBlank_append hall fun c hc => absurd hc (by simp)]
    rfl
  · have hhead : ∀ c, (core ++ back).head? = some c → isBlank c = false := by
      obtain ⟨d, rest, rfl⟩ := List.exists_cons_of_ne_nil hcore
      exact h.head
    rw [dropWhile_isBlank_append hfront hhead, List.reverse_append,
      dropWhile_isBlank_append hreverse hlast, List.reverse_reverse]

/-- **Trimming is taking white space off both ends.** -/
theorem trim_eq_iff {text core : List Char} :
    trim text = core ↔ IsTrimmed text core :=
  ⟨fun h => h ▸ isTrimmed_trim text, IsTrimmed.trim_eq⟩

/-- Text without white space is left as it is. -/
theorem IsSolid.isTrimmed {text : List Char} (h : IsSolid text) :
    IsTrimmed text text where
  around := ⟨[], [], nofun, nofun, (List.append_nil text).symm⟩
  head c hc := h c (List.mem_of_head? hc)
  last c hc := h c (List.mem_of_getLast? hc)

/-- White space around a text is all that is lost. -/
theorem IsTrimmed.mem {text core : List Char} (h : IsTrimmed text core)
    {c : Char} (hc : c ∈ text) (hblank : isBlank c = false) : c ∈ core := by
  obtain ⟨front, back, hfront, hback, rfl⟩ := h.around
  have hnot : ¬ isBlank c = true := Bool.eq_false_iff.1 hblank
  rcases List.mem_append.1 hc with hmem | hmem
  · exact absurd (hfront c hmem) hnot
  · rcases List.mem_append.1 hmem with hmem | hmem
    · exact hmem
    · exact absurd (hback c hmem) hnot

/-! ## Words in a line -/

/-- **Words with a blank between them.** -/
def spaced (words : List (List Char)) : List Char :=
  [' '].intercalate words

theorem spaced_cons_cons (word next : List Char) (rest : List (List Char)) :
    spaced (word :: next :: rest) = word ++ ' ' :: spaced (next :: rest) := by
  simp [spaced, List.intercalate]

/-- **Words that are set apart by blanks are read back.** -/
theorem words_spaced {list : List (List Char)}
    (h : ∀ word ∈ list, IsWord word) : words (spaced list) = list := by
  induction list with
  | nil => rfl
  | cons word rest ih =>
    obtain ⟨hword, hrest⟩ := List.forall_mem_cons.1 h
    have hone : words word = [word] :=
      words_of_forall_not_isBlank hword.1 hword.2
    cases rest with
    | nil => simpa [spaced] using hone
    | cons next rest =>
      rw [spaced_cons_cons, words_append_blank (by decide), hone, ih hrest,
        List.singleton_append]

/-- Words that are set apart by blanks are on one line. -/
theorem not_mem_spaced {list : List (List Char)}
    (h : ∀ word ∈ list, IsWord word) : '\n' ∉ spaced list := by
  have hsolid : ∀ {text}, IsSolid text → '\n' ∉ text := fun ht hmem =>
    absurd (ht '\n' hmem) (by decide)
  induction list with
  | nil => exact List.not_mem_nil
  | cons word rest ih =>
    obtain ⟨hword, hrest⟩ := List.forall_mem_cons.1 h
    cases rest with
    | nil => simpa [spaced] using hsolid hword.2
    | cons next rest =>
      rw [spaced_cons_cons, List.mem_append, List.mem_cons]
      rintro (hmem | heq | hmem)
      · exact hsolid hword.2 hmem
      · exact absurd heq (by decide)
      · exact ih hrest hmem

/-- **A text that begins with no white space begins with its first word.** -/
theorem exists_words_cons {c : Char} (hc : isBlank c = false)
    (text : List Char) :
    ∃ word rest, words (c :: text) = (c :: word) :: rest := by
  obtain ⟨piece, pieces, hp⟩ :=
    List.exists_cons_of_ne_nil (List.splitOnP_ne_nil isBlank text)
  refine ⟨piece, pieces.filter fun word => !word.isEmpty, ?_⟩
  unfold words
  rw [List.splitOnP_cons_eq_if_modifyHead, if_neg (Bool.eq_false_iff.1 hc), hp,
    List.modifyHead_cons, List.filter_cons_of_pos rfl]

/-! ## White space between words -/

/-- White space at the front belongs to no word. -/
theorem words_append_of_forall_isBlank {gap : List Char}
    (h : ∀ c ∈ gap, isBlank c = true) (text : List Char) :
    words (gap ++ text) = words text := by
  induction gap with
  | nil => rfl
  | cons c gap ih =>
    obtain ⟨hc, hgap⟩ := List.forall_mem_cons.1 h
    rw [List.cons_append, words_cons_of_isBlank hc, ih hgap]

/-- Text of white space alone has no word. -/
theorem words_of_forall_isBlank {text : List Char}
    (h : ∀ c ∈ text, isBlank c = true) : words text = [] := by
  rw [← List.append_nil text, words_append_of_forall_isBlank h, words_nil]

/-- **A text that continues no word**: it is empty or begins with white
space. -/
def SetApart (text : List Char) : Prop :=
  ∀ c, text.head? = some c → isBlank c = true

/-- **The words of what is set apart come behind the others.** -/
theorem SetApart.words_append {text : List Char} (h : SetApart text)
    (front : List Char) : words (front ++ text) = words front ++ words text := by
  cases text with
  | nil => rw [List.append_nil, words_nil, List.append_nil]
  | cons c text =>
    have hc : isBlank c = true := h c rfl
    rw [words_append_blank hc, words_cons_of_isBlank hc]

/-- What is set apart remains so when more is written behind it. -/
theorem SetApart.append {text back : List Char} (h : SetApart text)
    (hback : SetApart back) : SetApart (text ++ back) := by
  cases text with
  | nil => exact hback
  | cons c text => exact h

/-- **A gap between words**: white space that leaves them on one line. -/
structure IsGap (gap : List Char) : Prop where
  /-- There is something between the words. -/
  ne_nil : gap ≠ []
  /-- It is white space. -/
  isBlank : ∀ c ∈ gap, isBlank c = true
  /-- No line is ended. -/
  not_mem : '\n' ∉ gap

/-- A gap sets apart what is behind it. -/
theorem IsGap.setApart_append {gap : List Char} (h : IsGap gap)
    (text : List Char) : SetApart (gap ++ text) := by
  obtain ⟨c, rest, rfl⟩ := List.exists_cons_of_ne_nil h.ne_nil
  intro d hd
  obtain rfl := Option.some.inj hd
  exact h.isBlank c List.mem_cons_self

/-- **A gap divides words**, and leaves no other trace. -/
theorem IsGap.words_append {gap : List Char} (h : IsGap gap)
    (front back : List Char) :
    words (front ++ (gap ++ back)) = words front ++ words back := by
  rw [(h.setApart_append back).words_append,
    words_append_of_forall_isBlank h.isBlank]

end CanCatalog.Text
