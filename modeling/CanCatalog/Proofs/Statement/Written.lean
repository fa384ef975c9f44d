import CanCatalog.Proofs.Number.Integers
import CanCatalog.Proofs.Statement.Fields
import CanCatalog.Proofs.Statement.Words

/-!
# Definitions as they are written

Messages and signals have a documented form:

    BO_ <id> <genus>: <bytes> <family>
     SG_ <name> : <bit>|<length> (<factor>,<offset>) [<min>|<max>] <description>

A line of this form is described here by what it defines, together with what is
left to the writer: which of two characters stands between the bit and the
length, and how the line is ended. Every choice of words that are words makes a
line, however odd. A name may look like a tag, a genus may be empty or end in a
colon of its own: reading the line gives what was written.
-/

namespace CanCatalog.Statement

open Text (IsWord IsSolid)

/-! ## Pairs and positions -/

/-- **A pair of integers as it is written**: in brackets, with the separator
between them. -/
def PairStyle.written (style : PairStyle) (a b : Int64) : List Char :=
  style.opening :: (Number.integerText a.toInt
    ++ style.separator :: (Number.integerText b.toInt ++ [style.closing]))

/-- **A style that can be told from its numbers**: none of its three characters
occurs in an integer, and the separator is no bracket. -/
structure PairStyle.Clear (style : PairStyle) : Prop where
  /-- The bracket on the left is not part of a number. -/
  opening_not : Numeral.isIntegerChar style.opening = false
  /-- The bracket on the right is not part of a number. -/
  closing_not : Numeral.isIntegerChar style.closing = false
  /-- What separates the numbers is not part of one. -/
  separator_not : Numeral.isIntegerChar style.separator = false
  /-- What separates the numbers is not taken away with the brackets. -/
  separator_ne : style.separator ≠ style.opening
    ∧ style.separator ≠ style.closing
  /-- None of the three is white space. -/
  solid : Text.isBlank style.opening = false
    ∧ Text.isBlank style.separator = false
    ∧ Text.isBlank style.closing = false

theorem scaling_clear : scaling.Clear := by constructor <;> decide

theorem range_clear : range.Clear := by constructor <;> decide

variable {style : PairStyle}

/-- Nothing is taken out of the text of an integer. -/
theorem PairStyle.Clear.strip_integerText (h : style.Clear) (v : Int) :
    style.strip (Number.integerText v) = Number.integerText v := by
  refine List.filter_eq_self.2 fun c hc => ?_
  have hchar := Numeral.isIntegerChar_of_mem_integerText hc
  rw [Numeral.beq_eq_false_of_isIntegerChar hchar h.opening_not,
    Numeral.beq_eq_false_of_isIntegerChar hchar h.closing_not]
  rfl

/-- The brackets go, the numbers and the separator stay. -/
theorem PairStyle.Clear.strip_written (h : style.Clear) (a b : Int64) :
    style.strip (style.written a b)
      = Number.integerText a.toInt
        ++ style.separator :: Number.integerText b.toInt := by
  have ha := h.strip_integerText a.toInt
  have hb := h.strip_integerText b.toInt
  unfold PairStyle.strip at ha hb ⊢
  unfold PairStyle.written
  rw [List.filter_cons_of_neg (by simp), List.filter_append, ha,
    List.filter_cons_of_pos (by simp [h.separator_ne]), List.filter_append, hb,
    List.filter_cons_of_neg (by simp), List.filter_nil, List.append_nil]

/-- **A pair of integers is read back.** -/
theorem PairStyle.Clear.pair_written (h : style.Clear) (a b : Int64) :
    pair style (style.written a b) = .ok (.integer a, .integer b) := by
  have hnot : ∀ v : Int, ∀ c ∈ Number.integerText v,
      (c == style.separator) = false := fun v c hc =>
    Numeral.beq_eq_false_of_isIntegerChar
      (Numeral.isIntegerChar_of_mem_integerText hc) h.separator_not
  unfold pair
  rw [h.strip_written, List.splitOnP_append_cons_of_forall_mem
    (hnot a.toInt) style.separator (beq_self_eq_true _),
    List.splitOnP_eq_singleton (hnot b.toInt)]
  simp only [literal, Number.ofLiteral?_integerText]
  rfl

/-- A pair of integers is one word. -/
theorem PairStyle.Clear.isWord_written (h : style.Clear) (a b : Int64) :
    IsWord (style.written a b) := by
  have hnumber : ∀ v : Int, IsSolid (Number.integerText v) := fun v =>
    Numeral.isSolid_of_isIntegerChar
      fun _ => Numeral.isIntegerChar_of_mem_integerText
  obtain ⟨hopening, hseparator, hclosing⟩ := h.solid
  refine ⟨List.cons_ne_nil _ _, .cons hopening (.append (hnumber _) ?_)⟩
  refine .cons hseparator (.append (hnumber _) (.cons hclosing ?_))
  exact fun _ h => absurd h List.not_mem_nil

/-- **What stands between the bit and the length**: two characters are in
use. -/
inductive BitSeparator where
  /-- A bar. -/
  | bar
  /-- An at sign. -/
  | atSign

/-- The character of a separator. -/
def BitSeparator.char : BitSeparator → Char
  | bar => '|'
  | atSign => '@'

/-- **A position of bits as it is written.** -/
def bitsWritten (endBit : UInt16) (separator : BitSeparator)
    (length : UInt16) : List Char :=
  Nat.toDigits 10 endBit.toNat
    ++ separator.char :: Nat.toDigits 10 length.toNat

/-- **A position of bits is read back**, unless it is empty. -/
theorem bitField_bitsWritten (endBit : UInt16) (separator : BitSeparator)
    {length : UInt16} (h : length ≠ 0) :
    bitField (bitsWritten endBit separator length) = .ok (endBit, length) := by
  have hnot : ∀ n : Nat, ∀ c ∈ Nat.toDigits 10 n,
      (c == '@' || c == '|') = false := by
    intro n c hc
    have hchar := Numeral.isIntegerChar_of_mem_toDigits hc
    rw [Numeral.beq_eq_false_of_isIntegerChar hchar (by decide),
      Numeral.beq_eq_false_of_isIntegerChar hchar (by decide)]
    rfl
  have hseparator :
      (separator.char == '@' || separator.char == '|') = true := by
    cases separator <;> decide
  unfold bitField bitsWritten
  rw [List.splitOnP_append_cons_of_forall_mem (hnot endBit.toNat)
    separator.char hseparator, List.splitOnP_eq_singleton (hnot length.toNat)]
  simp only [Numeral.uint16?_toDigits]
  rw [if_neg h]

/-- A position of bits is one word. -/
theorem isWord_bitsWritten (endBit : UInt16) (separator : BitSeparator)
    (length : UInt16) : IsWord (bitsWritten endBit separator length) := by
  have hseparator : Text.isBlank separator.char = false := by
    cases separator <;> decide
  refine ⟨by simp [bitsWritten], (Numeral.isWord_toDigits _).2.append ?_⟩
  exact .cons hseparator (Numeral.isWord_toDigits _).2

/-! ## Messages -/

/-- **A message as it is written.** The name may be empty. -/
structure MessageLine where
  /-- The identifier. -/
  id : UInt32
  /-- The name, to which a colon is added. -/
  genus : String
  /-- There is no white space in the name. -/
  genus_isSolid : IsSolid genus.toList
  /-- How many bytes a frame carries. -/
  frameBytes : UInt32
  /-- The word at the end. -/
  family : String
  /-- It is a word. -/
  family_isWord : IsWord family.toList
  /-- How the line is ended. -/
  ending : Text.LineEnd

namespace MessageLine

/-- The words of a message. -/
def words (l : MessageLine) : List (List Char) :=
  [messageKeyword, Nat.toDigits 10 l.id.toNat, l.genus.toList ++ [':'],
    Nat.toDigits 10 l.frameBytes.toNat, l.family.toList]

/-- The line of a message. -/
def line (l : MessageLine) : Text.EndedLine := ⟨Text.spaced l.words, l.ending⟩

/-- **The message that is written.** -/
def message (l : MessageLine) : Message :=
  .empty l.id l.genus l.frameBytes l.family

theorem isWord_of_mem_words (l : MessageLine) :
    ∀ word ∈ l.words, IsWord word := by
  have hgenus : IsWord (l.genus.toList ++ [':']) :=
    ⟨by simp, l.genus_isSolid.append (by decide)⟩
  simp only [words, List.forall_mem_cons]
  exact ⟨by decide, Numeral.isWord_toDigits _, hgenus,
    Numeral.isWord_toDigits _, l.family_isWord,
    fun _ h => absurd h List.not_mem_nil⟩

theorem words_line (l : MessageLine) : Text.words l.line.seen = l.words := by
  rw [Text.EndedLine.words_seen]
  exact Text.words_spaced l.isWord_of_mem_words

/-- **A message is read as it was written.** -/
theorem states (l : MessageLine) : States (.message l.message) l.line.seen := by
  have hbegins : Begins messageKeyword l.line.seen := by
    rw [Begins, l.words_line]
    rfl
  have hcount : ∀ v : UInt32, count (Nat.toDigits 10 v.toNat) = .ok v := by
    intro v
    simp only [count, Numeral.uint32?_toDigits]
  have hgenus : withoutColon (l.genus.toList ++ [':']) = l.genus.toList := by
    unfold withoutColon
    rw [List.getLast?_concat, if_pos rfl, List.dropLast_concat]
  have hread : ofMessageWords l.line.seen l.words = .ok l.message := by
    refine ofMessageWords_eq_ok_iff.2 ⟨_, _, _, _, _, _, l.id, l.frameBytes,
      rfl, hcount l.id, hcount l.frameBytes, ?_⟩
    rw [hgenus, String.ofList_toList, String.ofList_toList]
    rfl
  rw [States, hbegins.ofLine_message, l.words_line, hread]
  rfl

end MessageLine

/-! ## Signals -/

/-- **A signal as it is written**, with integers for its numbers. -/
structure SignalLine where
  /-- The name. -/
  name : String
  /-- It is a word. -/
  name_isWord : IsWord name.toList
  /-- The bit position. -/
  endBit : UInt16
  /-- What stands between the bit position and the length. -/
  separator : BitSeparator
  /-- The number of bits. -/
  length : UInt16
  /-- There is at least one. -/
  length_ne_zero : length ≠ 0
  /-- The factor. -/
  factor : Int64
  /-- What is added after scaling. -/
  offset : Int64
  /-- The least physical value. -/
  minimum : Int64
  /-- The largest physical value. -/
  maximum : Int64
  /-- The word at the end. -/
  description : String
  /-- It is a word. -/
  description_isWord : IsWord description.toList
  /-- How the line is ended. -/
  ending : Text.LineEnd

namespace SignalLine

/-- The words of a signal. -/
def words (l : SignalLine) : List (List Char) :=
  [signalKeyword, l.name.toList, [':'],
    bitsWritten l.endBit l.separator l.length,
    scaling.written l.factor l.offset, range.written l.minimum l.maximum,
    l.description.toList]

/-- The line of a signal, which has a blank at the front. -/
def line (l : SignalLine) : Text.EndedLine :=
  ⟨' ' :: Text.spaced l.words, l.ending⟩

/-- **The signal that is written.** -/
def signal (l : SignalLine) : Signal where
  name := l.name
  endBit := l.endBit
  length := l.length
  factor := .integer l.factor
  offset := .integer l.offset
  minimum := .integer l.minimum
  maximum := .integer l.maximum
  description := l.description
  value := none

theorem isWord_of_mem_words (l : SignalLine) :
    ∀ word ∈ l.words, IsWord word := by
  simp only [words, List.forall_mem_cons]
  exact ⟨by decide, l.name_isWord, by decide, isWord_bitsWritten _ _ _,
    scaling_clear.isWord_written _ _, range_clear.isWord_written _ _,
    l.description_isWord, fun _ h => absurd h List.not_mem_nil⟩

theorem words_line (l : SignalLine) : Text.words l.line.seen = l.words := by
  rw [Text.EndedLine.words_seen]
  exact (Text.words_cons_of_isBlank (by decide) _).trans
    (Text.words_spaced l.isWord_of_mem_words)

/-- A colon is no tag, so a signal is not mistaken for one that has a tag,
whatever its name is. -/
theorem isMultiplexed_words (l : SignalLine) : isMultiplexed l.words = false :=
  Bool.and_false _

/-- **A signal is read as it was written.** -/
theorem states (l : SignalLine) : States (.signal l.signal) l.line.seen := by
  have hbegins : Begins signalKeyword l.line.seen := by
    rw [Begins, l.words_line]
    rfl
  have hwords : ofSignalWords l.name.toList
      (bitsWritten l.endBit l.separator l.length)
      (scaling.written l.factor l.offset) (range.written l.minimum l.maximum)
      l.description.toList = .ok l.signal := by
    refine ofSignalWords_eq_ok_iff.2 ⟨_, _, _, _, _, _,
      bitField_bitsWritten _ _ l.length_ne_zero,
      scaling_clear.pair_written _ _, range_clear.pair_written _ _, ?_⟩
    rw [String.ofList_toList, String.ofList_toList]
    rfl
  have hread : ofSignalLine l.line.seen l.words = .ok l.signal := by
    unfold ofSignalLine
    rw [l.isMultiplexed_words, if_neg Bool.false_ne_true]
    exact hwords
  rw [States, hbegins.ofLine_signal, l.words_line, hread]
  rfl

end SignalLine

end CanCatalog.Statement
