import CanCatalog.Proofs.Statement.Kind

/-!
# What definitions hold

A definition is made of words of its line, and its fields keep what is true of
words: a name has no white space in it, and it is not empty, except for the name
of a message, of which a colon may be all there was. Numbers have been checked
for their width, and a signal has at least one bit. This is what it means that
a definition is *sound* (`Message.Sound`, `Signal.Sound`).

The faults of a definition are about its words as well. That a signal is out of
place is not one of them: it is decided before the words are looked at.
-/

namespace CanCatalog

/-- **A signal as a line can define it.** -/
structure Signal.Sound (s : Signal) : Prop where
  /-- The name is a word. -/
  name_isWord : Text.IsWord s.name.toList
  /-- There is at least one bit, and their number has 16 bits. -/
  length_bounds : 1 ≤ s.length.toNat ∧ s.length.toNat ≤ 65535
  /-- The description is a word. -/
  description_isWord : Text.IsWord s.description.toList
  /-- No value is recorded. -/
  value_eq : s.value = none

/-- **A message as lines can define it.** -/
structure Message.Sound (m : Message) : Prop where
  /-- There is no white space in the name. -/
  genus_isSolid : Text.IsSolid m.genus.toList
  /-- The family is a word. -/
  family_isWord : Text.IsWord m.family.toList
  /-- A signal is stored under its name, and is sound. -/
  signals : ∀ name s, m.signal? name = some s → s.name = name ∧ s.Sound

/-- **A sound signal can be added** to a sound message, under its name. -/
theorem Message.Sound.put {m : Message} (h : m.Sound) {s : Signal}
    (hs : s.Sound) : (m.put s.name s).Sound where
  genus_isSolid := h.genus_isSolid
  family_isWord := h.family_isWord
  signals name s' hs' := by
    rw [Message.signal?_put] at hs'
    split at hs'
    · next hname =>
      obtain rfl := Option.some.inj hs'
      exact ⟨hname, hs⟩
    · exact h.signals name s' hs'

/-- **A fault of words**: there are too few of them, or one is not what it should
be. -/
inductive Fault.OfWords : Fault → Prop where
  /-- Words are missing. -/
  | tooShort (expected found : Nat) (content : String) :
    OfWords (.tooShort expected found content)
  /-- A word, or a part of one, is no number. -/
  | notANumber (token : String) : OfWords (.notANumber token)
  /-- A word is no position of bits. -/
  | badBitField (token : String) (why : BitFieldFault) :
    OfWords (.badBitField token why)

namespace Statement

/-! ## Messages -/

/-- **A message is read from five words**, two of which are numbers. -/
theorem ofMessageWords_eq_ok_iff {line : List Char}
    {tokens : List (List Char)} {m : Message} :
    ofMessageWords line tokens = .ok m
      ↔ ∃ keyword idWord genus bytesWord family rest id frameBytes,
        tokens = keyword :: idWord :: genus :: bytesWord :: family :: rest
        ∧ count idWord = .ok id ∧ count bytesWord = .ok frameBytes
        ∧ m = Message.empty id (String.ofList (withoutColon genus)) frameBytes
            (String.ofList family) := by
  constructor
  · intro h
    unfold ofMessageWords at h
    split at h
    · obtain ⟨id, hid, h⟩ := Except.bind_eq_ok_iff.1 h
      obtain ⟨frameBytes, hbytes, h⟩ := Except.bind_eq_ok_iff.1 h
      exact ⟨_, _, _, _, _, _, id, frameBytes, rfl, hid, hbytes,
        (Except.ok.inj h).symm⟩
    · exact absurd h (by simp)
  · rintro ⟨_, _, _, _, _, _, id, frameBytes, rfl, hid, hbytes, rfl⟩
    simp only [ofMessageWords, hid, hbytes]
    rfl

/-- A colon taken away leaves part of a word. -/
theorem withoutColon_subset (token : List Char) :
    withoutColon token ⊆ token := by
  unfold withoutColon
  split
  · exact List.dropLast_subset token
  · exact List.Subset.refl token

/-- **A message that is stated is sound.** -/
theorem States.message_sound {m : Message} {line : List Char}
    (h : States (.message m) line) : m.Sound := by
  obtain ⟨_, _, genus, _, family, _, id, frameBytes, hwords, -, -, rfl⟩ :=
    ofMessageWords_eq_ok_iff.1 h.ofMessageWords_eq
  have hgenus : genus ∈ Text.words line := by simp [hwords]
  have hfamily : family ∈ Text.words line := by simp [hwords]
  have hpart := (Text.isWord_of_mem_words hgenus).2.of_subset
    (withoutColon_subset genus)
  refine ⟨hpart.ofList, (Text.isWord_of_mem_words hfamily).ofList,
    fun name s hs => ?_⟩
  rw [Message.signal?_empty] at hs
  exact absurd hs (by simp)

/-! ## Pairs of numbers -/

/-- A part of a pair is read if it is the literal of a number. -/
theorem literal_eq_ok_iff {token : List Char} {n : Number} :
    literal token = .ok n ↔ Number.ofLiteral? token = some n := by
  unfold literal
  cases Number.ofLiteral? token with
  | none => simp
  | some n' => simp

/-- **A pair is read from the first two parts of its word**, brackets left
aside. -/
theorem pair_eq_ok_iff {style : PairStyle} {token : List Char}
    {a b : Number} :
    pair style token = .ok (a, b)
      ↔ ∃ first second rest,
        (style.strip token).splitOnP (· == style.separator)
            = first :: second :: rest
          ∧ Number.ofLiteral? first = some a
          ∧ Number.ofLiteral? second = some b := by
  constructor
  · intro h
    unfold pair at h
    split at h
    · next first second rest hparts =>
      obtain ⟨a', ha, h⟩ := Except.bind_eq_ok_iff.1 h
      obtain ⟨b', hb, h⟩ := Except.bind_eq_ok_iff.1 h
      obtain ⟨rfl, rfl⟩ := Prod.mk.inj (Except.ok.inj h)
      exact ⟨first, second, rest, hparts, literal_eq_ok_iff.1 ha,
        literal_eq_ok_iff.1 hb⟩
    · exact absurd h (by simp)
  · rintro ⟨first, second, rest, hparts, ha, hb⟩
    unfold pair
    rw [hparts]
    dsimp only
    rw [literal_eq_ok_iff.2 ha, literal_eq_ok_iff.2 hb]
    rfl

/-! ## Signals -/

/-- **A signal is read from its words** if these are a position of bits and two
pairs of numbers. -/
theorem ofSignalWords_eq_ok_iff {name bits scale limits description : List Char}
    {s : Signal} :
    ofSignalWords name bits scale limits description = .ok s
      ↔ ∃ endBit length factor offset minimum maximum,
        bitField bits = .ok (endBit, length)
        ∧ pair scaling scale = .ok (factor, offset)
        ∧ pair range limits = .ok (minimum, maximum)
        ∧ s = ⟨String.ofList name, endBit, length, factor, offset, minimum,
            maximum, String.ofList description, none⟩ := by
  constructor
  · intro h
    obtain ⟨⟨endBit, length⟩, hbits, h⟩ := Except.bind_eq_ok_iff.1 h
    obtain ⟨⟨factor, offset⟩, hscale, h⟩ := Except.bind_eq_ok_iff.1 h
    obtain ⟨⟨minimum, maximum⟩, hlimits, h⟩ := Except.bind_eq_ok_iff.1 h
    exact ⟨endBit, length, factor, offset, minimum, maximum, hbits, hscale,
      hlimits, (Except.ok.inj h).symm⟩
  · rintro ⟨endBit, length, factor, offset, minimum, maximum, hbits, hscale,
      hlimits, rfl⟩
    unfold ofSignalWords
    rw [hbits, hscale, hlimits]
    rfl

/-- **A signal is read from words of its line**, with or without a tag. -/
theorem exists_of_ofSignalLine {line : List Char} {tokens : List (List Char)}
    {s : Signal} (h : ofSignalLine line tokens = .ok s) :
    ∃ name ∈ tokens, ∃ bits ∈ tokens, ∃ scale ∈ tokens, ∃ limits ∈ tokens,
      ∃ description ∈ tokens,
        ofSignalWords name bits scale limits description = .ok s := by
  unfold ofSignalLine at h
  split at h
  all_goals
    split at h
    · refine ⟨_, ?_, _, ?_, _, ?_, _, ?_, _, ?_, h⟩ <;> simp
    · exact absurd h (by simp)

/-- A position of bits has at least one. -/
theorem ne_zero_of_bitField {token : List Char} {endBit length : UInt16}
    (h : bitField token = .ok (endBit, length)) : length ≠ 0 := by
  unfold bitField at h
  split at h
  · split at h
    · exact absurd h (by simp)
    · split at h
      · exact absurd h (by simp)
      · split at h
        · exact absurd h (by simp)
        · next hne =>
          obtain ⟨-, rfl⟩ := Prod.mk.inj (Except.ok.inj h)
          exact hne
  · exact absurd h (by simp)

/-- **A signal that is stated is sound.** -/
theorem States.signal_sound {s : Signal} {line : List Char}
    (h : States (.signal s) line) : s.Sound := by
  obtain ⟨name, hname, bits, -, scale, -, limits, -, description, hdescription,
    hs⟩ := exists_of_ofSignalLine h.ofSignalLine_eq
  obtain ⟨endBit, length, factor, offset, minimum, maximum, hbits, -, -, rfl⟩ :=
    ofSignalWords_eq_ok_iff.1 hs
  have hpos : length.toNat ≠ 0 := fun hzero =>
    ne_zero_of_bitField hbits (UInt16.toNat_inj.1 hzero)
  exact ⟨(Text.isWord_of_mem_words hname).ofList,
    ⟨Nat.one_le_iff_ne_zero.2 hpos, Nat.le_of_lt_succ length.toNat_lt⟩,
    (Text.isWord_of_mem_words hdescription).ofList, rfl⟩

/-! ## What is wrong with words -/

variable {fault : Fault}

theorem ofWords_of_count {token : List Char}
    (h : count token = .error fault) : fault.OfWords := by
  unfold count at h
  split at h
  · exact absurd h (by simp)
  · obtain rfl := Except.error.inj h
    exact .notANumber _

theorem ofWords_of_ofMessageWords {line : List Char}
    {tokens : List (List Char)}
    (h : ofMessageWords line tokens = .error fault) : fault.OfWords := by
  unfold ofMessageWords at h
  split at h
  · rcases Except.bind_eq_error_iff.1 h with h | ⟨id, -, h⟩
    · exact ofWords_of_count h
    · rcases Except.bind_eq_error_iff.1 h with h | ⟨bytes, -, h⟩
      · exact ofWords_of_count h
      · exact absurd h (by simp [pure, Except.pure])
  · obtain rfl := Except.error.inj h
    exact .tooShort _ _ _

/-- What is wrong with a part of a pair is that it is no number. -/
theorem exists_of_literal_eq_error {token : List Char}
    (h : literal token = .error fault) : ∃ part, fault = .notANumber part := by
  unfold literal at h
  split at h
  · exact absurd h (by simp)
  · exact ⟨_, (Except.error.inj h).symm⟩

/-- What is wrong with a position of bits is said about the whole of it. -/
theorem exists_of_bitField_eq_error {token : List Char}
    (h : bitField token = .error fault) :
    ∃ why, fault = .badBitField (String.ofList token) why := by
  unfold bitField at h
  dsimp only at h
  split at h
  · split at h
    · exact ⟨_, (Except.error.inj h).symm⟩
    · split at h
      · exact ⟨_, (Except.error.inj h).symm⟩
      · split at h
        · exact ⟨_, (Except.error.inj h).symm⟩
        · exact absurd h (by simp)
  · exact ⟨_, (Except.error.inj h).symm⟩

/-- What is wrong with a pair is that there are no two numbers in it. -/
theorem exists_of_pair_eq_error {style : PairStyle} {token : List Char}
    (h : pair style token = .error fault) : ∃ part, fault = .notANumber part := by
  unfold pair at h
  split at h
  · rcases Except.bind_eq_error_iff.1 h with h | ⟨a, -, h⟩
    · exact exists_of_literal_eq_error h
    · rcases Except.bind_eq_error_iff.1 h with h | ⟨b, -, h⟩
      · exact exists_of_literal_eq_error h
      · exact absurd h (by simp [pure, Except.pure])
  · exact ⟨_, (Except.error.inj h).symm⟩

/-- **The words of a signal are refused from left to right**: the position of
bits, or the scaling behind a position, or the range behind both. -/
theorem ofSignalWords_eq_error_iff
    {name bits scale limits description : List Char} :
    ofSignalWords name bits scale limits description = .error fault
      ↔ bitField bits = .error fault
        ∨ (∃ field, bitField bits = .ok field)
          ∧ pair scaling scale = .error fault
        ∨ (∃ field, bitField bits = .ok field)
          ∧ (∃ scaled, pair scaling scale = .ok scaled)
          ∧ pair range limits = .error fault := by
  unfold ofSignalWords
  cases bitField bits with
  | error e => simp [bind, Except.bind]
  | ok field =>
    cases pair scaling scale with
    | error e => simp [bind, Except.bind]
    | ok scaled =>
      cases pair range limits with
      | error e => simp [bind, Except.bind]
      | ok limited => simp [bind, Except.bind, pure, Except.pure]

/-- **Enough words are not found too few**: what is wrong is one of them. -/
theorem exists_of_ofSignalWords_eq_error
    {name bits scale limits description : List Char}
    (h : ofSignalWords name bits scale limits description = .error fault) :
    (∃ why, fault = .badBitField (String.ofList bits) why)
      ∨ ∃ part, fault = .notANumber part := by
  rcases ofSignalWords_eq_error_iff.1 h with h | ⟨-, h⟩ | ⟨-, -, h⟩
  · exact .inl (exists_of_bitField_eq_error h)
  · exact .inr (exists_of_pair_eq_error h)
  · exact .inr (exists_of_pair_eq_error h)

theorem ofWords_of_ofSignalWords
    {name bits scale limits description : List Char}
    (h : ofSignalWords name bits scale limits description = .error fault) :
    fault.OfWords := by
  rcases exists_of_ofSignalWords_eq_error h with ⟨why, rfl⟩ | ⟨part, rfl⟩
  · exact .badBitField _ _
  · exact .notANumber _

theorem ofWords_of_ofSignalLine {line : List Char}
    {tokens : List (List Char)} (h : ofSignalLine line tokens = .error fault) :
    fault.OfWords := by
  unfold ofSignalLine at h
  split at h
  all_goals
    split at h
    · exact ofWords_of_ofSignalWords h
    · obtain rfl := Except.error.inj h
      exact .tooShort _ _ _

/-- **What can be wrong with a line**: its words, or that it begins as a signal
does where no message is being defined. -/
theorem ofLine_eq_error {messageOpen : Bool} {line : List Char}
    (h : ofLine messageOpen line = .error fault) :
    fault.OfWords
      ∨ Begins signalKeyword line ∧ messageOpen = false
        ∧ fault = .strayLine (String.ofList line) := by
  cases Statement.kind line with
  | blank _ heq => exact absurd ((heq messageOpen).symm.trans h) (by simp)
  | message _ heq =>
    rw [heq] at h
    exact .inl (ofWords_of_ofMessageWords (Except.map_eq_error_iff.1 h))
  | signal hbegins htrue hfalse =>
    cases messageOpen with
    | true =>
      rw [htrue] at h
      exact .inl (ofWords_of_ofSignalLine (Except.map_eq_error_iff.1 h))
    | false =>
      rw [hfalse] at h
      exact .inr ⟨hbegins, rfl, (Except.error.inj h).symm⟩
  | other _ _ _ _ heq =>
    exact absurd ((heq messageOpen).symm.trans h) (by simp)

/-- **A line is out of place exactly if it begins as a signal does where no
message is being defined.** What else it says has no part in it. -/
theorem ofLine_eq_strayLine_iff {messageOpen : Bool} {line : List Char}
    {content : String} :
    ofLine messageOpen line = .error (.strayLine content)
      ↔ Begins signalKeyword line ∧ messageOpen = false
        ∧ content = String.ofList line := by
  constructor
  · intro h
    rcases ofLine_eq_error h with hwords | ⟨hbegins, hclosed, hcontent⟩
    · exact absurd hwords nofun
    · exact ⟨hbegins, hclosed, Fault.strayLine.inj hcontent⟩
  · rintro ⟨hbegins, rfl, rfl⟩
    cases Statement.kind line with
    | blank hwords _ => exact absurd hwords hbegins.words_ne_nil
    | message hm _ =>
      exact absurd (hm.unique hbegins) messageKeyword_ne_signalKeyword
    | signal _ _ hfalse => exact hfalse
    | other _ hw _ hne _ => exact absurd (hw.unique hbegins) hne

end Statement

end CanCatalog
