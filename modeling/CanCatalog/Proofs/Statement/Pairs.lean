import CanCatalog.Proofs.Outcome
import CanCatalog.Proofs.Statement.Parts

/-!
# Brackets of a pair, and what is quoted of a word that is none

The brackets of a pair are there for the reader. They are taken away before
anything else is looked at, not only where a pair should have them, so that all
words which are the same but for brackets are read to the same pair. This is
said here in two ways that come to the same (`PairStyle.rebracketed_iff`): the
words are one word when their brackets are taken away, or the one can be made
into the other by putting brackets in and taking them out.

A word that is no pair is refused for the first thing that is wrong, and there
brackets do make a difference. Where nothing separates two parts, the whole word
is quoted, with its brackets. Where a part is no number, the part is quoted, and
the brackets are gone (`Misread`).
-/

namespace CanCatalog.Statement

variable {style : PairStyle} {token other : List Char}

/-! ## Brackets -/

namespace PairStyle

/-- Whether a character is one of the two brackets. -/
def isBracket (style : PairStyle) (c : Char) : Bool :=
  c == style.opening || c == style.closing

/-- **The same word but for brackets**, which are put in and taken out one at a
time, anywhere. -/
inductive Rebracketed (style : PairStyle) (token : List Char) :
    List Char → Prop where
  /-- Nothing is done. -/
  | same : Rebracketed style token token
  /-- A bracket is put in. -/
  | insert {front back : List Char} {bracket : Char}
    (before : Rebracketed style token (front ++ back))
    (isBracket : style.isBracket bracket = true) :
    Rebracketed style token (front ++ bracket :: back)
  /-- A bracket is taken out. -/
  | delete {front back : List Char} {bracket : Char}
    (before : Rebracketed style token (front ++ bracket :: back))
    (isBracket : style.isBracket bracket = true) :
    Rebracketed style token (front ++ back)

/-- Two texts are stripped each for itself. -/
@[simp] theorem strip_append (style : PairStyle) (front back : List Char) :
    style.strip (front ++ back) = style.strip front ++ style.strip back :=
  List.filter_append front back

/-- A character in front is stripped if it is a bracket, and remains if not. -/
theorem strip_cons (style : PairStyle) (c : Char) (token : List Char) :
    style.strip (c :: token)
      = if style.isBracket c then style.strip token
        else c :: style.strip token := by
  show (c :: token).filter (fun c => !style.isBracket c) = _
  rw [List.filter_cons]
  cases style.isBracket c <;> rfl

/-- A bracket anywhere is stripped. -/
theorem strip_append_cons {c : Char} (h : style.isBracket c = true)
    (front back : List Char) :
    style.strip (front ++ c :: back) = style.strip (front ++ back) := by
  rw [strip_append, strip_append, strip_cons, if_pos h]

/-- **Brackets that are put in or taken out are stripped.** -/
theorem Rebracketed.strip_eq (h : style.Rebracketed token other) :
    style.strip other = style.strip token := by
  induction h with
  | same => rfl
  | insert _ hbracket ih => exact (strip_append_cons hbracket _ _).trans ih
  | delete _ hbracket ih => exact (strip_append_cons hbracket _ _).symm.trans ih

/-- **Stripping is taking out brackets**, behind any text that remains as it
is. -/
theorem rebracketed_append_strip_iff (front : List Char) :
    style.Rebracketed token (front ++ style.strip other)
      ↔ style.Rebracketed token (front ++ other) := by
  induction other generalizing front with
  | nil => exact Iff.rfl
  | cons c rest ih =>
    by_cases hc : style.isBracket c = true
    · rw [strip_cons, if_pos hc, ih]
      exact ⟨fun h => h.insert hc, fun h => h.delete hc⟩
    · -- what is no bracket is counted to the text in front
      rw [strip_cons, if_neg hc, List.append_cons front c rest,
        List.append_cons front c (style.strip rest)]
      exact ih (front ++ [c])

/-- **Words are the same but for brackets if they are the same without
them.** -/
theorem rebracketed_iff :
    style.Rebracketed token other
      ↔ style.strip other = style.strip token := by
  refine ⟨Rebracketed.strip_eq, fun h => ?_⟩
  have hstripped : style.Rebracketed token (style.strip token) :=
    (rebracketed_append_strip_iff []).2 .same
  exact (rebracketed_append_strip_iff []).1 (h ▸ hstripped)

end PairStyle

/-! ## What is quoted -/

/-- **What is quoted of a word that is no pair**: the word if nothing separates
two parts, and otherwise the first part that is no number, without brackets. -/
inductive Misread (style : PairStyle) (token : List Char) : List Char → Prop where
  /-- Nothing sets parts apart. -/
  | whole (absent : ∀ c ∈ style.strip token, style.separates c = false) :
    Misread style token token
  /-- The first part is no number. -/
  | first {first second : List Char}
    (parts : Text.Parts style.separates (style.strip token) first second)
    (bad : Number.ofLiteral? first = none) :
    Misread style token first
  /-- The first part is a number and the second part is none. -/
  | second {first second : List Char} {a : Number}
    (parts : Text.Parts style.separates (style.strip token) first second)
    (first_read : Number.ofLiteral? first = some a)
    (bad : Number.ofLiteral? second = none) :
    Misread style token second

/-- **A pair is two parts that are numbers**, and perhaps more parts. -/
theorem pair_eq_ok_iff_parts {a b : Number} :
    pair style token = .ok (a, b)
      ↔ ∃ first second,
        Text.Parts style.separates (style.strip token) first second
          ∧ Number.ofLiteral? first = some a
          ∧ Number.ofLiteral? second = some b := by
  rw [pair_eq_iff]
  constructor
  · intro h
    cases h with
    | pair parts ha hb => exact ⟨_, _, parts, ha, hb⟩
  · rintro ⟨first, second, hparts, ha, hb⟩
    exact .pair hparts ha hb

/-- **What is refused as a pair is quoted** as it has to be. -/
theorem pair_eq_error_iff {fault : Fault} :
    pair style token = .error fault
      ↔ ∃ quoted, Misread style token quoted
        ∧ fault = .notANumber (String.ofList quoted) := by
  rw [pair_eq_iff]
  constructor
  · intro h
    cases h with
    | noSeparator absent => exact ⟨_, .whole absent, rfl⟩
    | badFirst parts bad => exact ⟨_, .first parts bad, rfl⟩
    | badSecond parts ha bad => exact ⟨_, .second parts ha bad, rfl⟩
  · rintro ⟨quoted, h, rfl⟩
    cases h with
    | whole absent => exact .noSeparator absent
    | first parts bad => exact .badFirst parts bad
    | second parts ha bad => exact .badSecond parts ha bad

/-! ## Words that are the same but for brackets -/

/-- **A pair is read without its brackets.** Words that are the same without
brackets are read alike, except that each is quoted as it is where nothing
separates two parts. -/
theorem pair_eq_or_clear (hstrip : style.strip other = style.strip token) :
    pair style other = pair style token
      ∨ (∀ c ∈ style.strip token, style.separates c = false)
        ∧ pair style token = .error (.notANumber (String.ofList token))
        ∧ pair style other = .error (.notANumber (String.ofList other)) := by
  rcases Text.clear_or_exists_parts style.separates (style.strip token) with
    hclear | ⟨first, second, hparts⟩
  · exact .inr ⟨hclear, pair_of_clear hclear, pair_of_clear (hstrip ▸ hclear)⟩
  · have hother : Text.Parts style.separates (style.strip other) first second :=
      hstrip ▸ hparts
    exact .inl ((pair_of_parts hother).trans (pair_of_parts hparts).symm)

/-- **Brackets do not change a pair.** -/
theorem pair_eq_ok_congr (hstrip : style.strip other = style.strip token)
    (p : Number × Number) : pair style other = .ok p ↔ pair style token = .ok p := by
  rcases pair_eq_or_clear hstrip with h | ⟨-, htoken, hother⟩
  · rw [h]
  · rw [htoken, hother]
    exact iff_of_false nofun nofun

/-- **Pairs are accepted by their parts, and others are refused with a quotation
that says why**, in the line where they stand. This holds in either style, of
scaling and of ranges, and the parts are those that are left without brackets. So
nothing depends on the brackets of a word but the quotation of a word that nothing
separates. Words are the same without brackets if brackets that are put in and
taken out, as many as there may be and wherever they are, make the one into the
other; and then one of them is a pair if the other is, and the same pair. -/
theorem pairs_are_exact (number : Nat) (style : PairStyle) (token : List Char) :
    (∀ a b, (pair style token).mapError (ReadError.atLine number) = .ok (a, b)
      ↔ ∃ first second,
        Text.Parts style.separates (style.strip token) first second
          ∧ Number.ofLiteral? first = some a
          ∧ Number.ofLiteral? second = some b)
    ∧ (∀ e, (pair style token).mapError (ReadError.atLine number) = .error e
      ↔ ∃ quoted, Misread style token quoted
        ∧ e = .atLine number (.notANumber (String.ofList quoted)))
    ∧ (∀ other, style.strip other = style.strip token →
      pair style other = pair style token
        ∨ (∀ c ∈ style.strip token, style.separates c = false)
          ∧ pair style token = .error (.notANumber (String.ofList token))
          ∧ pair style other = .error (.notANumber (String.ofList other)))
    ∧ ∀ other,
      (style.Rebracketed token other ↔ style.strip other = style.strip token)
      ∧ (style.Rebracketed token other →
        ∀ p, pair style other = .ok p ↔ pair style token = .ok p) := by
  refine ⟨fun a b => ?_, fun e => ?_, fun other => pair_eq_or_clear,
    fun other => ⟨PairStyle.rebracketed_iff, fun h => pair_eq_ok_congr h.strip_eq⟩⟩
  · rw [Except.mapError_eq_ok_iff, pair_eq_ok_iff_parts]
  · rw [Except.mapError_eq_error_iff]
    constructor
    · rintro ⟨fault, hfault, rfl⟩
      obtain ⟨quoted, hquoted, rfl⟩ := pair_eq_error_iff.1 hfault
      exact ⟨quoted, hquoted, rfl⟩
    · rintro ⟨quoted, hquoted, rfl⟩
      exact ⟨_, pair_eq_error_iff.2 ⟨quoted, hquoted, rfl⟩, rfl⟩

example : (pair scaling "1(,)2),3".toList).toOption
    = some (.integer 1, .integer 2) := by decide +kernel

end CanCatalog.Statement
