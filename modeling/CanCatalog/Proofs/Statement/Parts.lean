import CanCatalog.Proofs.Number.Natural
import CanCatalog.Proofs.Statement.Fields

/-!
# The parts of words

Three words in the definition of a signal have parts of their own: the position
of bits, the scaling and the range. Each is two parts set apart by a separator,
and whatever a further separator sets apart is not looked at. What a word may
be is said here as a grammar that mentions no reader: one relation for
positions (`ReadsBits`) and one for pairs (`ReadsPair`), with one rule for each
way to be accepted or refused. A rule for a fault asks that everything to the
left of it is right, and so the rules say which fault is reported.

That a reader follows its grammar takes two directions. It is right about what
the rules allow, and some rule allows what it does.
-/

namespace CanCatalog

namespace Text

/-- **The first two parts of a text**, which a separator sets apart. The second
part ends where the text does, or before a further separator. -/
inductive Parts (separates : Char → Bool) :
    List Char → List Char → List Char → Prop where
  /-- There are two parts. -/
  | two {first second : List Char} {separator : Char}
    (first_clear : ∀ c ∈ first, separates c = false)
    (isSeparator : separates separator = true)
    (second_clear : ∀ c ∈ second, separates c = false) :
    Parts separates (first ++ separator :: second) first second
  /-- There are more than two parts. -/
  | more {first second rest : List Char} {separator next : Char}
    (first_clear : ∀ c ∈ first, separates c = false)
    (isSeparator : separates separator = true)
    (second_clear : ∀ c ∈ second, separates c = false)
    (isNext : separates next = true) :
    Parts separates (first ++ separator :: (second ++ next :: rest)) first
      second

variable {separates : Char → Bool} {text : List Char}

/-- A text has a first separator or none at all. -/
theorem clear_or_exists_separator (separates : Char → Bool)
    (text : List Char) :
    (∀ c ∈ text, separates c = false)
      ∨ ∃ front separator back, text = front ++ separator :: back
        ∧ (∀ c ∈ front, separates c = false) ∧ separates separator = true := by
  cases hfind : text.find? separates with
  | none =>
    exact .inl fun c hc => Bool.eq_false_iff.2 (List.find?_eq_none.1 hfind c hc)
  | some separator =>
    obtain ⟨hseparator, front, back, htext, hfront⟩ :=
      List.find?_eq_some_iff_append.1 hfind
    refine .inr ⟨front, separator, back, htext, fun c hc => ?_, hseparator⟩
    simpa using hfront c hc

/-- **A text has two parts unless it is free of separators.** -/
theorem clear_or_exists_parts (separates : Char → Bool) (text : List Char) :
    (∀ c ∈ text, separates c = false)
      ∨ ∃ first second, Parts separates text first second := by
  rcases clear_or_exists_separator separates text with
    hclear | ⟨first, separator, back, rfl, hfirst, hseparator⟩
  · exact .inl hclear
  · refine .inr ?_
    rcases clear_or_exists_separator separates back with
      hback | ⟨second, next, rest, rfl, hsecond, hnext⟩
    · exact ⟨first, back, .two hfirst hseparator hback⟩
    · exact ⟨first, second, .more hfirst hseparator hsecond hnext⟩

/-- **The parts are the first pieces that the text is split into.** -/
theorem Parts.splitOnP_eq {first second : List Char}
    (h : Parts separates text first second) :
    ∃ more, text.splitOnP separates = first :: second :: more := by
  cases h with
  | two hfirst hseparator hsecond =>
    rw [List.splitOnP_append_cons_of_forall_mem hfirst _ hseparator,
      List.splitOnP_eq_singleton hsecond]
    exact ⟨[], rfl⟩
  | more hfirst hseparator hsecond hnext =>
    rw [List.splitOnP_append_cons_of_forall_mem hfirst _ hseparator,
      List.splitOnP_append_cons_of_forall_mem hsecond _ hnext]
    exact ⟨_, rfl⟩

end Text

namespace Statement

open Numeral (IsNatural)

/-! ## Positions of bits -/

/-- What sets apart the parts of a position of bits. -/
def isBitSeparator (c : Char) : Bool := c == '@' || c == '|'

/-- **The grammar of positions of bits**, with what is reported where a word is
none. -/
inductive ReadsBits (token : List Char) :
    Except Fault (UInt16 × UInt16) → Prop where
  /-- Nothing sets parts apart. -/
  | noSeparator (absent : ∀ c ∈ token, isBitSeparator c = false) :
    ReadsBits token (.error (.badBitField (String.ofList token) .noSeparator))
  /-- The first part is no number of 16 bits. -/
  | badEndBit {first second : List Char}
    (parts : Text.Parts isBitSeparator token first second)
    (bad : ∀ v : UInt16, ¬ IsNatural first v.toNat) :
    ReadsBits token (.error (.badBitField (String.ofList token) .endBit))
  /-- The second part is no number of 16 bits. -/
  | badLength {first second : List Char} {endBit : UInt16}
    (parts : Text.Parts isBitSeparator token first second)
    (endBit_read : IsNatural first endBit.toNat)
    (bad : ∀ v : UInt16, ¬ IsNatural second v.toNat) :
    ReadsBits token (.error (.badBitField (String.ofList token) .length))
  /-- The second part is zero. -/
  | empty {first second : List Char} {endBit : UInt16}
    (parts : Text.Parts isBitSeparator token first second)
    (endBit_read : IsNatural first endBit.toNat)
    (length_read : IsNatural second 0) :
    ReadsBits token (.error (.badBitField (String.ofList token) .empty))
  /-- The parts are a bit and a number of bits. -/
  | bits {first second : List Char} {endBit length : UInt16}
    (parts : Text.Parts isBitSeparator token first second)
    (endBit_read : IsNatural first endBit.toNat)
    (length_read : IsNatural second length.toNat) (nonempty : length ≠ 0) :
    ReadsBits token (.ok (endBit, length))

/-- A word without a separator is no position. -/
theorem bitField_of_clear {token : List Char}
    (h : ∀ c ∈ token, isBitSeparator c = false) :
    bitField token = .error (.badBitField (String.ofList token) .noSeparator) := by
  have hsplit : token.splitOnP isBitSeparator = [token] :=
    List.splitOnP_eq_singleton h
  unfold isBitSeparator at hsplit
  simp only [bitField, hsplit]

/-- What is asked of the two parts of a position. -/
theorem bitField_of_parts {token first second : List Char}
    (h : Text.Parts isBitSeparator token first second) :
    bitField token
      = match Numeral.uint16? first, Numeral.uint16? second with
        | none, _ => .error (.badBitField (String.ofList token) .endBit)
        | some _, none => .error (.badBitField (String.ofList token) .length)
        | some endBit, some length =>
          if length = 0 then
            .error (.badBitField (String.ofList token) .empty)
          else .ok (endBit, length) := by
  obtain ⟨more, hsplit⟩ := h.splitOnP_eq
  unfold isBitSeparator at hsplit
  simp only [bitField, hsplit]
  cases Numeral.uint16? first with
  | none => rfl
  | some endBit =>
    cases Numeral.uint16? second with
    | none => rfl
    | some length => rfl

/-- What is done with a word is allowed. -/
theorem readsBits_bitField (token : List Char) :
    ReadsBits token (bitField token) := by
  rcases Text.clear_or_exists_parts isBitSeparator token with
    hclear | ⟨first, second, hparts⟩
  · rw [bitField_of_clear hclear]
    exact .noSeparator hclear
  · rw [bitField_of_parts hparts]
    cases hfirst : Numeral.uint16? first with
    | none => exact .badEndBit hparts (Numeral.uint16?_eq_none_iff.1 hfirst)
    | some endBit =>
      have hend := Numeral.uint16?_eq_some_iff.1 hfirst
      cases hsecond : Numeral.uint16? second with
      | none =>
        exact .badLength hparts hend (Numeral.uint16?_eq_none_iff.1 hsecond)
      | some length =>
        have hlength := Numeral.uint16?_eq_some_iff.1 hsecond
        dsimp only
        split
        · next hzero =>
          subst hzero
          exact .empty hparts hend hlength
        · next hne => exact .bits hparts hend hlength hne

/-- **Positions of bits are read by their grammar.** -/
theorem bitField_eq_iff {token : List Char}
    {outcome : Except Fault (UInt16 × UInt16)} :
    bitField token = outcome ↔ ReadsBits token outcome := by
  constructor
  · rintro rfl
    exact readsBits_bitField token
  · intro h
    cases h with
    | noSeparator absent => exact bitField_of_clear absent
    | badEndBit parts bad =>
      rw [bitField_of_parts parts, Numeral.uint16?_eq_none_iff.2 bad]
    | badLength parts hend bad =>
      rw [bitField_of_parts parts, Numeral.uint16?_eq_some_iff.2 hend,
        Numeral.uint16?_eq_none_iff.2 bad]
    | empty parts hend hzero =>
      rw [bitField_of_parts parts, Numeral.uint16?_eq_some_iff.2 hend,
        Numeral.uint16?_eq_some_iff (v := 0) |>.2 hzero]
      exact if_pos rfl
    | bits parts hend hlength nonempty =>
      rw [bitField_of_parts parts, Numeral.uint16?_eq_some_iff.2 hend,
        Numeral.uint16?_eq_some_iff.2 hlength]
      exact if_neg nonempty

/-! ## Pairs of numbers -/

/-- What sets apart the parts of a pair. -/
def PairStyle.separates (style : PairStyle) (c : Char) : Bool :=
  c == style.separator

/-- **The grammar of pairs**, with what is reported where a word is none. -/
inductive ReadsPair (style : PairStyle) (token : List Char) :
    Except Fault (Number × Number) → Prop where
  /-- Nothing sets parts apart. -/
  | noSeparator (absent : ∀ c ∈ style.strip token, style.separates c = false) :
    ReadsPair style token (.error (.notANumber (String.ofList token)))
  /-- The first part is no number. -/
  | badFirst {first second : List Char}
    (parts : Text.Parts style.separates (style.strip token) first second)
    (bad : Number.ofLiteral? first = none) :
    ReadsPair style token (.error (.notANumber (String.ofList first)))
  /-- The second part is no number. -/
  | badSecond {first second : List Char} {a : Number}
    (parts : Text.Parts style.separates (style.strip token) first second)
    (first_read : Number.ofLiteral? first = some a)
    (bad : Number.ofLiteral? second = none) :
    ReadsPair style token (.error (.notANumber (String.ofList second)))
  /-- Both parts are numbers. -/
  | pair {first second : List Char} {a b : Number}
    (parts : Text.Parts style.separates (style.strip token) first second)
    (first_read : Number.ofLiteral? first = some a)
    (second_read : Number.ofLiteral? second = some b) :
    ReadsPair style token (.ok (a, b))

variable {style : PairStyle}

/-- A word without a separator is no pair. -/
theorem pair_of_clear {token : List Char}
    (h : ∀ c ∈ style.strip token, style.separates c = false) :
    pair style token = .error (.notANumber (String.ofList token)) := by
  have hsplit : (style.strip token).splitOnP style.separates
      = [style.strip token] := List.splitOnP_eq_singleton h
  unfold PairStyle.separates at hsplit
  simp only [pair, hsplit]

/-- What is asked of the two parts of a pair. -/
theorem pair_of_parts {token first second : List Char}
    (h : Text.Parts style.separates (style.strip token) first second) :
    pair style token
      = match Number.ofLiteral? first, Number.ofLiteral? second with
        | none, _ => .error (.notANumber (String.ofList first))
        | some _, none => .error (.notANumber (String.ofList second))
        | some a, some b => .ok (a, b) := by
  obtain ⟨more, hsplit⟩ := h.splitOnP_eq
  unfold PairStyle.separates at hsplit
  simp only [pair, hsplit, literal]
  cases Number.ofLiteral? first with
  | none => rfl
  | some a =>
    cases Number.ofLiteral? second with
    | none => rfl
    | some b => rfl

/-- What is done with a word is allowed. -/
theorem readsPair_pair (style : PairStyle) (token : List Char) :
    ReadsPair style token (pair style token) := by
  rcases Text.clear_or_exists_parts style.separates (style.strip token) with
    hclear | ⟨first, second, hparts⟩
  · rw [pair_of_clear hclear]
    exact .noSeparator hclear
  · rw [pair_of_parts hparts]
    cases hfirst : Number.ofLiteral? first with
    | none => exact .badFirst hparts hfirst
    | some a =>
      cases hsecond : Number.ofLiteral? second with
      | none => exact .badSecond hparts hfirst hsecond
      | some b => exact .pair hparts hfirst hsecond

/-- **Pairs are read by their grammar.** -/
theorem pair_eq_iff {token : List Char}
    {outcome : Except Fault (Number × Number)} :
    pair style token = outcome ↔ ReadsPair style token outcome := by
  constructor
  · rintro rfl
    exact readsPair_pair style token
  · intro h
    cases h with
    | noSeparator absent => exact pair_of_clear absent
    | badFirst parts bad => rw [pair_of_parts parts, bad]
    | badSecond parts hfirst bad => rw [pair_of_parts parts, hfirst, bad]
    | pair parts hfirst hsecond => rw [pair_of_parts parts, hfirst, hsecond]

end Statement

end CanCatalog
