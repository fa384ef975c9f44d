import CanCatalog.Proofs.Number.Natural
import CanCatalog.Proofs.Statement.Fields

/-!
# Tags, and the places of words

The definition of a signal is words at fixed places, and a tag between the name
and the colon shifts all places behind it by one. The name stands before the tag
and keeps its place; the position of bits, the two pairs and the description do
not, and one word more is needed.

So a tag is *transparent* (`tag_is_transparent`): with it and without it, a line
is read as the same signal, or refused for the same reason. This needs the shift
to be made throughout, for the count of words as for each place, and it holds
whatever is behind the colon, even if that looks like a tag with a colon of its
own. A line that has too few words is the only one that is told apart, by the
number of words that it should have.

A word that is no tag is in the colon's place, and then the colon is where the
bits should be, of which a colon says nothing. There are such words that look
much like a tag: `m`, `mM`, `MM`, `m1x`.
-/

namespace CanCatalog.Statement

open Numeral (Digits)

/-! ## Tags -/

/-- **The tags of signals that are not in every frame.** -/
inductive IsTag : List Char → Prop where
  /-- The signal selects among the others. -/
  | selector : IsTag ['M']
  /-- The signal is selected by a number. -/
  | selected {digits : List Char} {n : Nat} (isDigits : Digits digits n) :
    IsTag ('m' :: digits)
  /-- The signal is selected by a number, and selects among others. -/
  | both {digits : List Char} {n : Nat} (isDigits : Digits digits n) :
    IsTag ('m' :: (digits ++ ['M']))

/-- What may follow the letter that a signal is selected. -/
theorem isTag_cons_iff {rest : List Char} :
    IsTag ('m' :: rest)
      ↔ ∃ digits n, Digits digits n
        ∧ (rest = digits ∨ rest = digits ++ ['M']) := by
  constructor
  · intro h
    cases h with
    | selected h => exact ⟨_, _, h, .inl rfl⟩
    | both h => exact ⟨_, _, h, .inr rfl⟩
  · rintro ⟨digits, n, h, rfl | rfl⟩
    · exact .selected h
    · exact .both h

/-- Digits do not end in a letter. -/
theorem getLast?_ne_of_digits {digits : List Char} {n : Nat}
    (h : Digits digits n) : digits.getLast? ≠ some 'M' :=
  fun hlast => absurd (h.isDigit 'M' (List.mem_of_getLast? hlast)) (by decide)

/-- **Tags are recognized.** -/
theorem isMultiplexTag_iff {word : List Char} :
    isMultiplexTag word = true ↔ IsTag word := by
  have hdigits : ∀ digits : List Char,
      (!digits.isEmpty && digits.all Char.isDigit) = true
        ↔ ∃ n, Digits digits n := by
    intro digits
    rw [Bool.and_eq_true, Bool.not_eq_true', List.isEmpty_eq_false_iff,
      List.all_eq_true]
    exact ⟨fun h => ⟨_, h.1, h.2, rfl⟩, fun ⟨n, h⟩ => ⟨h.ne_nil, h.isDigit⟩⟩
  unfold isMultiplexTag
  split
  · exact iff_of_true rfl .selector
  · next rest =>
    rw [isTag_cons_iff]
    dsimp only
    rw [hdigits]
    split
    · next hlast =>
      obtain ⟨front, rfl⟩ := List.getLast?_eq_some_iff.1 hlast
      rw [List.dropLast_concat]
      constructor
      · rintro ⟨n, h⟩
        exact ⟨front, n, h, .inr rfl⟩
      · rintro ⟨digits, n, h, rfl | heq⟩
        · exact absurd hlast (getLast?_ne_of_digits h)
        · exact ⟨n, (List.append_inj_left' heq rfl) ▸ h⟩
    · next hlast =>
      constructor
      · rintro ⟨n, h⟩
        exact ⟨rest, n, h, .inl rfl⟩
      · rintro ⟨digits, n, h, rfl | rfl⟩
        · exact ⟨n, h⟩
        · exact absurd List.getLast?_concat hlast
  · next hM hm =>
    refine iff_of_false Bool.false_ne_true fun h => ?_
    cases h with
    | selector => exact hM rfl
    | selected h => exact hm _ rfl
    | both h => exact hm _ rfl

instance (word : List Char) : Decidable (IsTag word) :=
  decidable_of_iff _ isMultiplexTag_iff

/-- Words that are no tags although they look like them. -/
example : ∀ word ∈ ["m", "mM", "MM", "m1x", "M1", "m-1"],
    ¬ IsTag word.toList := by
  decide

/-! ## Places -/

/-- **A tag stands behind the name**, and the colon behind the tag. -/
def Tagged (words : List (List Char)) : Prop :=
  ∃ tag, words[2]? = some tag ∧ IsTag tag ∧ words[3]? = some [':']

theorem isMultiplexed_iff {words : List (List Char)} :
    isMultiplexed words = true ↔ Tagged words := by
  unfold isMultiplexed Tagged
  split
  · next tag colon _ =>
    rw [Bool.and_eq_true, beq_iff_eq, isMultiplexTag_iff]
    simp [and_comm]
  · next hshort =>
    refine iff_of_false Bool.false_ne_true ?_
    rintro ⟨tag, -, -, hcolon⟩
    rcases words with _ | ⟨a, _ | ⟨b, _ | ⟨c, _ | ⟨d, words⟩⟩⟩⟩
    · simp at hcolon
    · simp at hcolon
    · simp at hcolon
    · simp at hcolon
    · exact hshort _ _ _ _ _ rfl

instance (words : List (List Char)) : Decidable (Tagged words) :=
  decidable_of_iff _ isMultiplexed_iff

/-- **How far the places behind the name are shifted.** -/
def shift (words : List (List Char)) : Nat := if Tagged words then 1 else 0

/-- **The words of a signal at their places**, those behind the name at shifted
ones. -/
structure Placed (words : List (List Char))
    (name bits scale limits description : List Char) : Prop where
  /-- The name. -/
  name_at : words[1]? = some name
  /-- The position of bits. -/
  bits_at : words[3 + shift words]? = some bits
  /-- The scaling. -/
  scale_at : words[4 + shift words]? = some scale
  /-- The range. -/
  limits_at : words[5 + shift words]? = some limits
  /-- The description. -/
  description_at : words[6 + shift words]? = some description

variable {words : List (List Char)} {line : List Char}

/-- **No place is missing in a line with enough words.** -/
theorem exists_placed (h : 7 + shift words ≤ words.length) :
    ∃ name bits scale limits description,
      Placed words name bits scale limits description := by
  have hplace : ∀ i, i < 7 + shift words → ∃ word, words[i]? = some word :=
    fun i hi => ⟨words[i], List.getElem?_eq_getElem (Nat.lt_of_lt_of_le hi h)⟩
  obtain ⟨name, hname⟩ := hplace 1 (by omega)
  obtain ⟨bits, hbits⟩ := hplace (3 + shift words) (by omega)
  obtain ⟨scale, hscale⟩ := hplace (4 + shift words) (by omega)
  obtain ⟨limits, hlimits⟩ := hplace (5 + shift words) (by omega)
  obtain ⟨description, hdescription⟩ := hplace (6 + shift words) (by omega)
  exact ⟨name, bits, scale, limits, description, hname, hbits, hscale, hlimits,
    hdescription⟩

/-- **Where the definition of a signal is read from**: its name, and what is left
of the line behind the colon. -/
theorem ofSignalLine_eq_drop (line : List Char) (words : List (List Char)) :
    ofSignalLine line words
      = match words[1]?, words.drop (3 + shift words) with
        | some name, bits :: scale :: limits :: description :: _ =>
          ofSignalWords name bits scale limits description
        | _, _ => .error (tooShort (7 + shift words) line words) := by
  unfold ofSignalLine shift
  -- either way the places are found by looking at the first words in turn
  by_cases htag : Tagged words
  · rw [if_pos htag, if_pos (isMultiplexed_iff.2 htag)]
    rcases words with _ | ⟨_, _ | ⟨_, _ | ⟨_, _ | ⟨_, _ | ⟨_, _ | ⟨_, _ | ⟨_,
      _ | ⟨_, _⟩⟩⟩⟩⟩⟩⟩⟩ <;> rfl
  · rw [if_neg htag, if_neg (mt isMultiplexed_iff.1 htag)]
    rcases words with _ | ⟨_, _ | ⟨_, _ | ⟨_, _ | ⟨_, _ | ⟨_, _ | ⟨_, _ | ⟨_,
      _⟩⟩⟩⟩⟩⟩⟩ <;> rfl

/-- **A line with too few words is refused.** -/
theorem ofSignalLine_of_lt (line : List Char)
    (h : words.length < 7 + shift words) :
    ofSignalLine line words
      = .error (.tooShort (7 + shift words) words.length
          (String.ofList line)) := by
  rw [ofSignalLine_eq_drop]
  split
  · next hdrop =>
    have hlength := congrArg List.length hdrop
    rw [List.length_drop] at hlength
    simp only [List.length_cons] at hlength
    omega
  · rfl

/-- What is left of a list begins with what is at the place. -/
theorem drop_eq_cons {α : Type} {list : List α} {i : Nat} {a : α}
    (h : list[i]? = some a) : list.drop i = a :: list.drop (i + 1) := by
  obtain ⟨hi, rfl⟩ := List.getElem?_eq_some_iff.1 h
  exact List.drop_eq_getElem_cons hi

/-- **A signal is read from the words at their places.** -/
theorem Placed.ofSignalLine_eq {name bits scale limits description : List Char}
    (h : Placed words name bits scale limits description) (line : List Char) :
    ofSignalLine line words
      = ofSignalWords name bits scale limits description := by
  have hdrop : words.drop (3 + shift words)
      = bits :: scale :: limits :: description
        :: words.drop (7 + shift words) := by
    have hnext : ∀ i, i + shift words + 1 = i + 1 + shift words := by
      intro i
      omega
    rw [drop_eq_cons h.bits_at, hnext, drop_eq_cons h.scale_at, hnext,
      drop_eq_cons h.limits_at, hnext, drop_eq_cons h.description_at, hnext]
  rw [ofSignalLine_eq_drop, h.name_at, hdrop]

/-! ## Lines with a tag -/

/-- **How a line with a tag and one without are read**, given what is behind the
colon in both. -/
inductive Agree (rest : List (List Char)) (tagged plain : List Char) :
    Bool → Except Fault Statement → Except Fault Statement → Prop where
  /-- Both lines are out of place where no message is being defined. -/
  | stray :
    Agree rest tagged plain false
      (.error (.strayLine (String.ofList tagged)))
      (.error (.strayLine (String.ofList plain)))
  /-- Both have too few words, of which the tag is one. -/
  | tooShort (isShort : rest.length < 4) :
    Agree rest tagged plain true
      (.error (.tooShort 8 (rest.length + 4) (String.ofList tagged)))
      (.error (.tooShort 7 (rest.length + 3) (String.ofList plain)))
  /-- Both define the same signal. -/
  | signal (isLong : 4 ≤ rest.length) (s : Signal) :
    Agree rest tagged plain true (.ok (.signal s)) (.ok (.signal s))
  /-- In both the position of bits is none, for the same reason. -/
  | badBitField (isLong : 4 ≤ rest.length) (token : String)
    (why : BitFieldFault) :
    Agree rest tagged plain true (.error (.badBitField token why))
      (.error (.badBitField token why))
  /-- In both the same part of a pair is no number. -/
  | notANumber (isLong : 4 ≤ rest.length) (token : String) :
    Agree rest tagged plain true (.error (.notANumber token))
      (.error (.notANumber token))

/-- A line with the keyword of a signal in front begins as a signal does. -/
theorem begins_signal {rest : List (List Char)}
    (h : Text.words line = signalKeyword :: rest) :
    Begins signalKeyword line := by
  unfold Begins
  rw [h]
  rfl

section Tag

/-- Behind a tag, places are shifted. -/
theorem shift_tagged {tag : List Char} (h : IsTag tag) (name : List Char)
    (rest : List (List Char)) :
    shift (signalKeyword :: name :: tag :: [':'] :: rest) = 1 :=
  if_pos ⟨tag, rfl, h, rfl⟩

/-- A word that is no tag shifts nothing. -/
theorem shift_of_not_isTag {word : List Char} (h : ¬ IsTag word)
    (name : List Char) (rest : List (List Char)) :
    shift (signalKeyword :: name :: word :: rest) = 0 :=
  if_neg fun ⟨_, hat, htag, _⟩ => h (Option.some.inj hat ▸ htag)

/-- A colon is no tag, so a line with a plain name is not taken for a tagged
one, whatever is behind the colon. -/
theorem shift_plain (name : List Char) (rest : List (List Char)) :
    shift (signalKeyword :: name :: [':'] :: rest) = 0 :=
  shift_of_not_isTag (by decide) name rest

variable {name : List Char} {rest : List (List Char)}

/-- **Where a message is being defined, tags are transparent.** The words are
found at shifted places, or are missed in both lines. -/
theorem IsTag.agree_of_open {tag tagged plain : List Char} (h : IsTag tag)
    (htagged : Text.words tagged = signalKeyword :: name :: tag :: [':'] :: rest)
    (hplain : Text.words plain = signalKeyword :: name :: [':'] :: rest) :
    Agree rest tagged plain true (ofLine true tagged) (ofLine true plain) := by
  have hshift := shift_tagged h name rest
  have hstay := shift_plain name rest
  rw [(begins_signal htagged).ofLine_signal,
    (begins_signal hplain).ofLine_signal, htagged, hplain]
  by_cases hlength : rest.length < 4
  · rw [ofSignalLine_of_lt tagged (by rw [hshift]; simp; omega),
      ofSignalLine_of_lt plain (by rw [hstay]; simp; omega), hshift, hstay]
    exact .tooShort hlength
  · -- the same four words are at the places of both lines
    have hlong := Nat.le_of_not_lt hlength
    obtain ⟨bits, scale, limits, description, more, rfl⟩ :
        ∃ bits scale limits description more,
          rest = bits :: scale :: limits :: description :: more := by
      match rest, hlong with
      | bits :: scale :: limits :: description :: more, _ =>
        exact ⟨bits, scale, limits, description, more, rfl⟩
    have hwith : Placed
        (signalKeyword :: name :: tag :: [':'] :: bits :: scale :: limits
          :: description :: more) name bits scale limits description := by
      constructor <;> simp [hshift]
    have hwithout : Placed
        (signalKeyword :: name :: [':'] :: bits :: scale :: limits
          :: description :: more) name bits scale limits description := by
      constructor <;> simp [hstay]
    rw [hwith.ofSignalLine_eq, hwithout.ofSignalLine_eq]
    cases hwords : ofSignalWords name bits scale limits description with
    | ok s => exact .signal hlong s
    | error fault =>
      rcases exists_of_ofSignalWords_eq_error hwords with
        ⟨why, rfl⟩ | ⟨part, rfl⟩
      · exact .badBitField hlong _ why
      · exact .notANumber hlong part

/-- A colon says nothing of bits. -/
theorem bitField_colon :
    bitField [':'] = .error (.badBitField ":" .noSeparator) :=
  rfl

/-- **A word that is no tag puts the colon where the bits should be.** -/
theorem ofLine_of_not_isTag {word line : List Char} (h : ¬ IsTag word)
    (hline : Text.words line = signalKeyword :: name :: word :: [':'] :: rest) :
    ofLine true line
      = if 3 ≤ rest.length then .error (.badBitField ":" .noSeparator)
        else .error (.tooShort 7 (rest.length + 4) (String.ofList line)) := by
  have hstay := shift_of_not_isTag h name ([':'] :: rest)
  rw [(begins_signal hline).ofLine_signal, hline]
  split
  · next hlong =>
    obtain ⟨scale, limits, description, more, rfl⟩ :
        ∃ scale limits description more,
          rest = scale :: limits :: description :: more := by
      match rest, hlong with
      | scale :: limits :: description :: more, _ =>
        exact ⟨scale, limits, description, more, rfl⟩
    have hplaced : Placed
        (signalKeyword :: name :: word :: [':'] :: scale :: limits
          :: description :: more) name [':'] scale limits description := by
      constructor <;> simp [hstay]
    rw [hplaced.ofSignalLine_eq,
      ofSignalWords_eq_error_iff.2 (.inl bitField_colon)]
    rfl
  · next hshort =>
    rw [ofSignalLine_of_lt line (by rw [hstay]; simp; omega), hstay]
    rfl

end Tag

/-- **Tags are transparent.** A line that has a tag between the name and the
colon is read as the line without it. A line that has another word there defines
no signal: the colon is where the bits should be. -/
theorem tag_is_transparent (messageOpen : Bool) (name : List Char)
    (rest : List (List Char)) :
    (∀ tag tagged plain, IsTag tag
        → Text.words tagged = signalKeyword :: name :: tag :: [':'] :: rest
        → Text.words plain = signalKeyword :: name :: [':'] :: rest
        → Agree rest tagged plain messageOpen (ofLine messageOpen tagged)
            (ofLine messageOpen plain))
      ∧ ∀ word line, ¬ IsTag word
        → Text.words line = signalKeyword :: name :: word :: [':'] :: rest
        → (∀ s, ofLine messageOpen line ≠ .ok (.signal s))
          ∧ (messageOpen = true → 7 ≤ (Text.words line).length
            → ofLine messageOpen line
              = .error (.badBitField ":" .noSeparator)) := by
  have hstray : ∀ {line rest}, Text.words line = signalKeyword :: rest
      → ofLine false line = .error (.strayLine (String.ofList line)) :=
    fun h => ofLine_eq_strayLine_iff.2 ⟨begins_signal h, rfl, rfl⟩
  constructor
  · intro tag tagged plain htag htagged hplain
    cases messageOpen with
    | false =>
      rw [hstray htagged, hstray hplain]
      exact .stray
    | true => exact htag.agree_of_open htagged hplain
  · intro word line hword hline
    cases messageOpen with
    | false =>
      refine ⟨fun s h => ?_, fun hopen => absurd hopen Bool.false_ne_true⟩
      exact absurd ((hstray hline).symm.trans h) (by simp)
    | true =>
      have hread := ofLine_of_not_isTag hword hline
      refine ⟨fun s h => ?_, fun _ hlength => ?_⟩
      · rw [hread] at h
        split at h <;> exact absurd h (by simp)
      · rw [hline] at hlength
        rw [hread, if_pos (by simpa using hlength)]

/-- A signal that is selected by a number, and a word with one letter more. -/
theorem tag_is_transparent_gear :
    (∃ rest, Agree rest "SG_ Gear m12 : 0|4@1+ (1,0) [0|9] TCU".toList
      "SG_ Gear : 0|4@1+ (1,0) [0|9] TCU".toList true
      (ofLine true "SG_ Gear m12 : 0|4@1+ (1,0) [0|9] TCU".toList)
      (ofLine true "SG_ Gear : 0|4@1+ (1,0) [0|9] TCU".toList))
    ∧ ofLine true "SG_ Gear m12x : 0|4@1+ (1,0) [0|9] TCU".toList
      = .error (.badBitField ":" .noSeparator) := by
  obtain ⟨hsame, hother⟩ := tag_is_transparent true "Gear".toList
    ["0|4@1+".toList, "(1,0)".toList, "[0|9]".toList, "TCU".toList]
  exact ⟨⟨_, hsame "m12".toList _ _ (by decide) (by decide) (by decide)⟩,
    (hother "m12x".toList _ (by decide) (by decide)).2 rfl (by decide)⟩

end CanCatalog.Statement
