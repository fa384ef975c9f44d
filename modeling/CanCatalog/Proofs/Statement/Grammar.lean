import CanCatalog.Proofs.Statement.Parts
import CanCatalog.Proofs.Statement.Places

/-!
# The grammar of lines

What a line is read as can be said without saying how it is read. The rules
below are about the words of a line, which are named by their places, and about
the parts of words; no rule mentions a reader. There is one rule for each thing
that a line can state and one for each way to be refused, and a rule for a fault
asks that all that is to be checked before is right. So at most one rule applies
to a line, and *some* rule always does: this is what `line_grammar` says, which
equates the reading of a line with what the rules allow.

Precedence is where such rules are subtle. A signal out of place is refused
before its words are counted, words are counted before any is looked at, and
from then on it goes from left to right, but for the name and the description,
about which nothing can be wrong. In the definition of a message the name stands
between two numbers, and takes no part in this either.

A rule names a word only by a place that the line has. The places of a signal
that has a tag are shifted (`shift`), and then the line has one word more. The
number of the line is in none of the rules: a fault is the same wherever the line
stands, and the number is put to it when the line is read.
-/

namespace CanCatalog.Statement

open Numeral (IsNatural)

/-! ## Messages -/

/-- **The name of a message in its word**: a colon at the end is left out, but no
other. -/
inductive NameIn : List Char → List Char → Prop where
  /-- The word ends in a colon. -/
  | colon (name : List Char) : NameIn (name ++ [':']) name
  /-- The word ends otherwise. -/
  | plain {name : List Char} (isPlain : name.getLast? ≠ some ':') :
    NameIn name name

/-- A colon at the end is taken off, and only there. -/
theorem withoutColon_eq_iff {word name : List Char} :
    withoutColon word = name ↔ NameIn word name := by
  constructor
  · rintro rfl
    unfold withoutColon
    split
    · next hlast =>
      obtain ⟨front, rfl⟩ := List.getLast?_eq_some_iff.1 hlast
      rw [List.dropLast_concat]
      exact .colon front
    · next hlast => exact .plain hlast
  · intro h
    unfold withoutColon
    cases h with
    | colon => rw [if_pos List.getLast?_concat, List.dropLast_concat]
    | plain isPlain => exact if_neg isPlain

/-- **The grammar of definitions of messages**, with what is reported where a
line is none. -/
inductive ReadsMessage (line : List Char) (words : List (List Char)) :
    Except Fault Message → Prop where
  /-- There are too few words. -/
  | tooShort (isShort : words.length < 5) :
    ReadsMessage line words
      (.error (.tooShort 5 words.length (String.ofList line)))
  /-- The first number is none. -/
  | badId {idWord : List Char} (isLong : 5 ≤ words.length)
    (id_at : words[1]? = some idWord)
    (bad : ∀ v : UInt32, ¬ IsNatural idWord v.toNat) :
    ReadsMessage line words (.error (.notANumber (String.ofList idWord)))
  /-- The second number is none, and the first one is. -/
  | badBytes {idWord bytesWord : List Char} {id : UInt32}
    (isLong : 5 ≤ words.length) (id_at : words[1]? = some idWord)
    (id_read : IsNatural idWord id.toNat)
    (bytes_at : words[3]? = some bytesWord)
    (bad : ∀ v : UInt32, ¬ IsNatural bytesWord v.toNat) :
    ReadsMessage line words (.error (.notANumber (String.ofList bytesWord)))
  /-- There are two numbers, with a name between them and one behind. -/
  | message {idWord genusWord genus bytesWord family : List Char}
    {id frameBytes : UInt32} (id_at : words[1]? = some idWord)
    (id_read : IsNatural idWord id.toNat)
    (genus_at : words[2]? = some genusWord) (genus_in : NameIn genusWord genus)
    (bytes_at : words[3]? = some bytesWord)
    (bytes_read : IsNatural bytesWord frameBytes.toNat)
    (family_at : words[4]? = some family) :
    ReadsMessage line words
      (.ok (Message.empty id (String.ofList genus) frameBytes
        (String.ofList family)))

variable {line : List Char} {words : List (List Char)}

/-- A count is the numeral of a number of 32 bits. -/
theorem count_eq_ok_iff {token : List Char} {v : UInt32} :
    count token = .ok v ↔ IsNatural token v.toNat := by
  rw [← Numeral.uint32?_eq_some_iff, count]
  cases Numeral.uint32? token with
  | none => simp
  | some v' => simp

/-- What is no such numeral is reported. -/
theorem count_of_bad {token : List Char}
    (h : ∀ v : UInt32, ¬ IsNatural token v.toNat) :
    count token = .error (.notANumber (String.ofList token)) := by
  rw [count, Numeral.uint32?_eq_none_iff.2 h]

/-- Every word is a count or is reported not to be one. -/
theorem count_cases (token : List Char) :
    (∃ v : UInt32, count token = .ok v ∧ IsNatural token v.toNat)
      ∨ ∀ v : UInt32, ¬ IsNatural token v.toNat := by
  by_cases h : ∃ v : UInt32, IsNatural token v.toNat
  · obtain ⟨v, hv⟩ := h
    exact .inl ⟨v, count_eq_ok_iff.2 hv, hv⟩
  · exact .inr (not_exists.1 h)

/-- **Where a message is read from**, in a line with enough words. -/
theorem ofMessageWords_of_places {idWord genus bytesWord family : List Char}
    (hid : words[1]? = some idWord) (hgenus : words[2]? = some genus)
    (hbytes : words[3]? = some bytesWord) (hfamily : words[4]? = some family) :
    ofMessageWords line words
      = (count idWord).bind fun id => (count bytesWord).bind fun frameBytes =>
          .ok (Message.empty id (String.ofList (withoutColon genus)) frameBytes
            (String.ofList family)) := by
  match words with
  | keyword :: _ :: _ :: _ :: _ :: rest =>
    obtain rfl := Option.some.inj hid
    obtain rfl := Option.some.inj hgenus
    obtain rfl := Option.some.inj hbytes
    obtain rfl := Option.some.inj hfamily
    rfl

/-- A line with enough words has a word at each place. -/
theorem exists_messagePlaces (h : 5 ≤ words.length) :
    ∃ idWord genus bytesWord family, words[1]? = some idWord
      ∧ words[2]? = some genus ∧ words[3]? = some bytesWord
      ∧ words[4]? = some family := by
  match words, h with
  | _ :: idWord :: genus :: bytesWord :: family :: _, _ =>
    exact ⟨idWord, genus, bytesWord, family, rfl, rfl, rfl, rfl⟩

theorem ofMessageWords_of_lt (h : words.length < 5) :
    ofMessageWords line words
      = .error (.tooShort 5 words.length (String.ofList line)) := by
  unfold ofMessageWords
  split
  · simp only [List.length_cons] at h
    omega
  · rfl

/-- What is done with a line is allowed. -/
theorem readsMessage_ofMessageWords (line : List Char)
    (words : List (List Char)) :
    ReadsMessage line words (ofMessageWords line words) := by
  rcases Nat.lt_or_ge words.length 5 with hshort | hlong
  · rw [ofMessageWords_of_lt hshort]
    exact .tooShort hshort
  · obtain ⟨idWord, genus, bytesWord, family, hid, hgenus, hbytes, hfamily⟩ :=
      exists_messagePlaces hlong
    rw [ofMessageWords_of_places hid hgenus hbytes hfamily]
    rcases count_cases idWord with ⟨id, hcount, hread⟩ | hbad
    · rw [hcount]
      rcases count_cases bytesWord with ⟨frameBytes, hcount', hread'⟩ | hbad
      · rw [hcount']
        exact .message hid hread hgenus (withoutColon_eq_iff.1 rfl) hbytes
          hread' hfamily
      · rw [count_of_bad hbad]
        exact .badBytes hlong hid hread hbytes hbad
    · rw [count_of_bad hbad]
      exact .badId hlong hid hbad

/-- **Messages are read by their grammar.** -/
theorem ofMessageWords_eq_iff {outcome : Except Fault Message} :
    ofMessageWords line words = outcome ↔ ReadsMessage line words outcome := by
  constructor
  · rintro rfl
    exact readsMessage_ofMessageWords line words
  · intro h
    cases h with
    | tooShort isShort => exact ofMessageWords_of_lt isShort
    | badId isLong id_at bad =>
      obtain ⟨_, genus, bytesWord, family, -, hgenus, hbytes, hfamily⟩ :=
        exists_messagePlaces isLong
      rw [ofMessageWords_of_places id_at hgenus hbytes hfamily,
        count_of_bad bad]
      rfl
    | badBytes isLong id_at id_read bytes_at bad =>
      obtain ⟨_, genus, _, family, -, hgenus, -, hfamily⟩ :=
        exists_messagePlaces isLong
      rw [ofMessageWords_of_places id_at hgenus bytes_at hfamily,
        count_eq_ok_iff.2 id_read, count_of_bad bad]
      rfl
    | message id_at id_read genus_at genus_in bytes_at bytes_read family_at =>
      rw [ofMessageWords_of_places id_at genus_at bytes_at family_at,
        count_eq_ok_iff.2 id_read, count_eq_ok_iff.2 bytes_read,
        withoutColon_eq_iff.2 genus_in]
      rfl

/-! ## Signals -/

/-- **The grammar of definitions of signals**, with what is reported where a line
is none. -/
inductive ReadsSignal (line : List Char) (words : List (List Char)) :
    Except Fault Signal → Prop where
  /-- There are too few words. -/
  | tooShort (isShort : words.length < 7 + shift words) :
    ReadsSignal line words
      (.error (.tooShort (7 + shift words) words.length (String.ofList line)))
  /-- The position of bits is none. -/
  | badBits {name bits scale limits description : List Char} {fault : Fault}
    (placed : Placed words name bits scale limits description)
    (bad : ReadsBits bits (.error fault)) :
    ReadsSignal line words (.error fault)
  /-- The scaling is none, and the position is one. -/
  | badScale {name bits scale limits description : List Char}
    {endBit length : UInt16} {fault : Fault}
    (placed : Placed words name bits scale limits description)
    (bits_read : ReadsBits bits (.ok (endBit, length)))
    (bad : ReadsPair scaling scale (.error fault)) :
    ReadsSignal line words (.error fault)
  /-- The range is none, and the position and the scaling are. -/
  | badLimits {name bits scale limits description : List Char}
    {endBit length : UInt16} {factor offset : Number} {fault : Fault}
    (placed : Placed words name bits scale limits description)
    (bits_read : ReadsBits bits (.ok (endBit, length)))
    (scale_read : ReadsPair scaling scale (.ok (factor, offset)))
    (bad : ReadsPair range limits (.error fault)) :
    ReadsSignal line words (.error fault)
  /-- All three are what they should be. -/
  | signal {name bits scale limits description : List Char}
    {endBit length : UInt16} {factor offset minimum maximum : Number}
    (placed : Placed words name bits scale limits description)
    (bits_read : ReadsBits bits (.ok (endBit, length)))
    (scale_read : ReadsPair scaling scale (.ok (factor, offset)))
    (limits_read : ReadsPair range limits (.ok (minimum, maximum))) :
    ReadsSignal line words
      (.ok ⟨String.ofList name, endBit, length, factor, offset, minimum,
        maximum, String.ofList description, none⟩)

/-- What is done with a line is allowed. -/
theorem readsSignal_ofSignalLine (line : List Char)
    (words : List (List Char)) :
    ReadsSignal line words (ofSignalLine line words) := by
  rcases Nat.lt_or_ge words.length (7 + shift words) with hshort | hlong
  · rw [ofSignalLine_of_lt line hshort]
    exact .tooShort hshort
  · obtain ⟨name, bits, scale, limits, description, hplaced⟩ :=
      exists_placed hlong
    rw [hplaced.ofSignalLine_eq line]
    cases hwords : ofSignalWords name bits scale limits description with
    | ok s =>
      obtain ⟨endBit, length, factor, offset, minimum, maximum, hbits, hscale,
        hlimits, rfl⟩ := ofSignalWords_eq_ok_iff.1 hwords
      exact .signal hplaced (bitField_eq_iff.1 hbits) (pair_eq_iff.1 hscale)
        (pair_eq_iff.1 hlimits)
    | error fault =>
      rcases ofSignalWords_eq_error_iff.1 hwords with
        hbits | ⟨⟨_, hbits⟩, hscale⟩ | ⟨⟨_, hbits⟩, ⟨_, hscale⟩, hlimits⟩
      · exact .badBits hplaced (bitField_eq_iff.1 hbits)
      · exact .badScale hplaced (bitField_eq_iff.1 hbits)
          (pair_eq_iff.1 hscale)
      · exact .badLimits hplaced (bitField_eq_iff.1 hbits)
          (pair_eq_iff.1 hscale) (pair_eq_iff.1 hlimits)

/-- **Signals are read by their grammar.** -/
theorem ofSignalLine_eq_iff {outcome : Except Fault Signal} :
    ofSignalLine line words = outcome ↔ ReadsSignal line words outcome := by
  constructor
  · rintro rfl
    exact readsSignal_ofSignalLine line words
  · intro h
    cases h with
    | tooShort isShort => exact ofSignalLine_of_lt line isShort
    | badBits placed bad =>
      rw [placed.ofSignalLine_eq line, ofSignalWords_eq_error_iff]
      exact .inl (bitField_eq_iff.2 bad)
    | badScale placed bits_read bad =>
      rw [placed.ofSignalLine_eq line, ofSignalWords_eq_error_iff]
      exact .inr (.inl ⟨⟨_, bitField_eq_iff.2 bits_read⟩, pair_eq_iff.2 bad⟩)
    | badLimits placed bits_read scale_read bad =>
      rw [placed.ofSignalLine_eq line, ofSignalWords_eq_error_iff]
      exact .inr (.inr ⟨⟨_, bitField_eq_iff.2 bits_read⟩,
        ⟨_, pair_eq_iff.2 scale_read⟩, pair_eq_iff.2 bad⟩)
    | signal placed bits_read scale_read limits_read =>
      rw [placed.ofSignalLine_eq line, ofSignalWords_eq_ok_iff]
      exact ⟨_, _, _, _, _, _, bitField_eq_iff.2 bits_read,
        pair_eq_iff.2 scale_read, pair_eq_iff.2 limits_read, rfl⟩

/-! ## Lines -/

/-- **The grammar of lines**, given whether a message is being defined. -/
inductive Reads (messageOpen : Bool) (line : List Char) :
    Except Fault Statement → Prop where
  /-- There is no word. -/
  | blank (no_words : Text.words line = []) :
    Reads messageOpen line (.ok .blank)
  /-- The first word is no keyword. -/
  | other {word : List Char} (first_at : (Text.words line)[0]? = some word)
    (not_message : word ≠ messageKeyword) (not_signal : word ≠ signalKeyword) :
    Reads messageOpen line (.ok .other)
  /-- The line defines a message. -/
  | message {m : Message}
    (first_at : (Text.words line)[0]? = some messageKeyword)
    (defines : ReadsMessage line (Text.words line) (.ok m)) :
    Reads messageOpen line (.ok (.message m))
  /-- The line should define a message. -/
  | badMessage {fault : Fault}
    (first_at : (Text.words line)[0]? = some messageKeyword)
    (bad : ReadsMessage line (Text.words line) (.error fault)) :
    Reads messageOpen line (.error fault)
  /-- The line should define a signal, of no message. -/
  | stray (first_at : (Text.words line)[0]? = some signalKeyword)
    (isClosed : messageOpen = false) :
    Reads messageOpen line (.error (.strayLine (String.ofList line)))
  /-- The line defines a signal. -/
  | signal {s : Signal}
    (first_at : (Text.words line)[0]? = some signalKeyword)
    (isOpen : messageOpen = true)
    (defines : ReadsSignal line (Text.words line) (.ok s)) :
    Reads messageOpen line (.ok (.signal s))
  /-- The line should define a signal. -/
  | badSignal {fault : Fault}
    (first_at : (Text.words line)[0]? = some signalKeyword)
    (isOpen : messageOpen = true)
    (bad : ReadsSignal line (Text.words line) (.error fault)) :
    Reads messageOpen line (.error fault)

/-- What is done with a line is allowed. -/
theorem reads_ofLine (messageOpen : Bool) (line : List Char) :
    Reads messageOpen line (ofLine messageOpen line) := by
  cases Statement.kind line with
  | blank hwords heq =>
    rw [heq]
    exact .blank hwords
  | other word hbegins hm hs heq =>
    rw [heq]
    exact .other (List.head?_eq_getElem?.symm.trans hbegins) hm hs
  | message hbegins heq =>
    have hfirst := List.head?_eq_getElem?.symm.trans hbegins
    have hreads := readsMessage_ofMessageWords line (Text.words line)
    rw [heq]
    cases hwords : ofMessageWords line (Text.words line) with
    | ok m => exact .message hfirst (hwords ▸ hreads)
    | error fault => exact .badMessage hfirst (hwords ▸ hreads)
  | signal hbegins htrue hfalse =>
    have hfirst := List.head?_eq_getElem?.symm.trans hbegins
    have hreads := readsSignal_ofSignalLine line (Text.words line)
    cases messageOpen with
    | false =>
      rw [hfalse]
      exact .stray hfirst rfl
    | true =>
      rw [htrue]
      cases hwords : ofSignalLine line (Text.words line) with
      | ok s => exact .signal hfirst rfl (hwords ▸ hreads)
      | error fault => exact .badSignal hfirst rfl (hwords ▸ hreads)

/-- What the rules allow is done. -/
theorem Reads.ofLine_eq {messageOpen : Bool}
    {outcome : Except Fault Statement} (h : Reads messageOpen line outcome) :
    ofLine messageOpen line = outcome := by
  have hbegins : ∀ {word}, (Text.words line)[0]? = some word
      → Begins word line := fun h => List.head?_eq_getElem?.trans h
  cases h with
  | blank no_words => simp only [ofLine, no_words]
  | other first_at not_message not_signal =>
    have hword := hbegins first_at
    cases Statement.kind line with
    | blank hwords _ => exact absurd hwords hword.words_ne_nil
    | message hm _ => exact absurd (hword.unique hm) not_message
    | signal hs _ _ => exact absurd (hword.unique hs) not_signal
    | other _ _ _ _ heq => exact heq messageOpen
  | message first_at defines =>
    rw [(hbegins first_at).ofLine_message, ofMessageWords_eq_iff.2 defines]
    rfl
  | badMessage first_at bad =>
    rw [(hbegins first_at).ofLine_message, ofMessageWords_eq_iff.2 bad]
    rfl
  | stray first_at isClosed =>
    exact ofLine_eq_strayLine_iff.2 ⟨hbegins first_at, isClosed, rfl⟩
  | signal first_at isOpen defines =>
    rw [isOpen, (hbegins first_at).ofLine_signal,
      ofSignalLine_eq_iff.2 defines]
    rfl
  | badSignal first_at isOpen bad =>
    rw [isOpen, (hbegins first_at).ofLine_signal, ofSignalLine_eq_iff.2 bad]
    rfl

/-- **A line that should define a message has a word at each place that is looked
at**, unless it is refused for the number of its words. -/
theorem exists_messagePlaces_of_ofLine {messageOpen : Bool}
    (hfirst : (Text.words line)[0]? = some messageKeyword)
    (hread : ofLine messageOpen line
      ≠ .error (.tooShort 5 (Text.words line).length (String.ofList line))) :
    ∃ idWord genus bytesWord family, (Text.words line)[1]? = some idWord
      ∧ (Text.words line)[2]? = some genus
      ∧ (Text.words line)[3]? = some bytesWord
      ∧ (Text.words line)[4]? = some family := by
  refine exists_messagePlaces (Nat.le_of_not_lt fun hshort => hread ?_)
  exact (Reads.badMessage hfirst (.tooShort hshort)).ofLine_eq

/-- **A line that should define a signal has a word at each place that is looked
at**, shifted or not, unless it is refused for the number of its words. -/
theorem exists_placed_of_ofLine
    (hfirst : (Text.words line)[0]? = some signalKeyword)
    (hread : ofLine true line
      ≠ .error (.tooShort (7 + shift (Text.words line)) (Text.words line).length
        (String.ofList line))) :
    ∃ name bits scale limits description,
      Placed (Text.words line) name bits scale limits description := by
  refine exists_placed (Nat.le_of_not_lt fun hshort => hread ?_)
  exact (Reads.badSignal hfirst rfl (.tooShort hshort)).ofLine_eq

/-- **A line is read by the grammar of lines**, and by nothing else. So it states
nothing exactly if it has no word, is of no concern exactly if its first word is
no keyword, and is out of place exactly if it begins as a signal does where no
message is being defined, whatever else it says. No place is looked at that a line does not
have: a line that is long enough not to be refused for the number of its words has
a word at each. Whichever number the line has, a fault is reported with this
number. -/
theorem line_grammar (messageOpen : Bool) (line : List Char) :
    (∀ outcome, ofLine messageOpen line = outcome
        ↔ Reads messageOpen line outcome)
      ∧ (ofLine messageOpen line = .ok .blank ↔ Text.words line = [])
      ∧ (ofLine messageOpen line = .ok .other
        ↔ ∃ word, (Text.words line)[0]? = some word ∧ word ≠ messageKeyword
          ∧ word ≠ signalKeyword)
      ∧ ((∃ content, ofLine messageOpen line = .error (.strayLine content))
        ↔ (Text.words line)[0]? = some signalKeyword ∧ messageOpen = false)
      ∧ ((Text.words line)[0]? = some messageKeyword →
        ofLine messageOpen line ≠ .error (.tooShort 5 (Text.words line).length
          (String.ofList line)) →
        ∃ idWord genus bytesWord family, (Text.words line)[1]? = some idWord
          ∧ (Text.words line)[2]? = some genus
          ∧ (Text.words line)[3]? = some bytesWord
          ∧ (Text.words line)[4]? = some family)
      ∧ ((Text.words line)[0]? = some signalKeyword → messageOpen = true →
        ofLine messageOpen line
          ≠ .error (.tooShort (7 + shift (Text.words line))
            (Text.words line).length (String.ofList line)) →
        ∃ name bits scale limits description,
          Placed (Text.words line) name bits scale limits description)
      ∧ ∀ number e, (ofLine messageOpen line).mapError
          (ReadError.atLine number) = .error e
        ↔ ∃ fault, Reads messageOpen line (.error fault)
          ∧ e = ReadError.atLine number fault := by
  have hreads : ∀ outcome, ofLine messageOpen line = outcome
      ↔ Reads messageOpen line outcome := by
    intro outcome
    constructor
    · rintro rfl
      exact reads_ofLine messageOpen line
    · exact Reads.ofLine_eq
  refine ⟨hreads, ?_, ?_, ?_, exists_messagePlaces_of_ofLine, ?_,
    fun number e => ?_⟩
  · rw [hreads]
    constructor
    · intro h
      cases h with
      | blank no_words => exact no_words
    · exact .blank
  · rw [hreads]
    constructor
    · intro h
      cases h with
      | other first_at not_message not_signal =>
        exact ⟨_, first_at, not_message, not_signal⟩
    · rintro ⟨word, first_at, not_message, not_signal⟩
      exact .other first_at not_message not_signal
  · constructor
    · rintro ⟨content, h⟩
      obtain ⟨hbegins, hclosed, -⟩ := ofLine_eq_strayLine_iff.1 h
      exact ⟨List.head?_eq_getElem?.symm.trans hbegins, hclosed⟩
    · rintro ⟨hfirst, hclosed⟩
      exact ⟨_, ofLine_eq_strayLine_iff.2
        ⟨List.head?_eq_getElem?.trans hfirst, hclosed, rfl⟩⟩
  · rintro hfirst rfl hread
    exact exists_placed_of_ofLine hfirst hread
  · constructor
    · intro h
      cases hread : ofLine messageOpen line with
      | ok st =>
        rw [hread] at h
        exact absurd h (by simp)
      | error fault =>
        rw [hread] at h
        exact ⟨fault, (hreads _).1 hread, (Except.error.inj h).symm⟩
    · rintro ⟨fault, hfault, rfl⟩
      rw [(hreads _).2 hfault]
      rfl

end CanCatalog.Statement
