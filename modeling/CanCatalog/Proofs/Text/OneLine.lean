import CanCatalog.Number
import CanCatalog.Proofs.Number.Integers
import CanCatalog.Proofs.Text.Word
import CanCatalog.Text.Quoted

/-!
# Text on one line

A log is read line by line, and so are the messages of a program. Whoever can
put a line break into one of them can forge the next. A line feed is not the
only danger: a carriage return, a form feed, the next-line control and the
separators of lines and paragraphs also begin a new line somewhere, and a line
of a text may contain all of these.

What such messages are made of is safe for one of two reasons. Words, and
numbers among them, have no white space, and every line break is white space.
And a quotation shows a character as it is only if it has an appearance, which
no line break has; what it writes in place of one is a name made of letters and
digits.
-/

namespace CanCatalog

namespace Text

/-- **The characters that begin a new line**: the line feed, the vertical tab,
the form feed, the carriage return, the next-line control, and the separators of
lines and of paragraphs. -/
def lineBreaks : List Char :=
  ['\n', '\x0b', '\x0c', '\r', '\u0085', '\u2028', '\u2029']

/-- **A text on one line**: no character of it begins a new one. -/
def OneLine (text : List Char) : Prop := ∀ c ∈ text, c ∉ lineBreaks

instance (text : List Char) : Decidable (OneLine text) :=
  decidable_of_iff ((text.all fun c => !lineBreaks.contains c) = true)
    (by simp [OneLine])

theorem oneLine_cons_iff {c : Char} {text : List Char} :
    OneLine (c :: text) ↔ c ∉ lineBreaks ∧ OneLine text :=
  List.forall_mem_cons

theorem oneLine_append_iff {front back : List Char} :
    OneLine (front ++ back) ↔ OneLine front ∧ OneLine back :=
  List.forall_mem_append

/-- Every line break is white space. -/
theorem isBlank_of_mem_lineBreaks {c : Char} (h : c ∈ lineBreaks) :
    isBlank c = true := by
  have hall : lineBreaks.all isBlank = true := by decide
  exact List.all_eq_true.1 hall c h

/-- **Text without white space is on one line.** -/
theorem IsSolid.oneLine {text : List Char} (h : IsSolid text) :
    OneLine text := fun c hc hbreak =>
  Bool.false_ne_true ((h c hc).symm.trans (isBlank_of_mem_lineBreaks hbreak))

/-! ## Numbers -/

/-- **A number is written with its digits**, in whatever base. -/
theorem exists_of_mem_toDigits {b : Nat} (hb : 1 < b) {c : Char} (n : Nat) :
    c ∈ Nat.toDigits b n → ∃ d < b, c = Nat.digitChar d := by
  induction n using Nat.strongRecOn with
  | ind n ih =>
    rw [Nat.toDigits_eq_if hb]
    split
    · next hlt => exact fun h => ⟨n, hlt, List.mem_singleton.1 h⟩
    · next hle =>
      have hpos : 0 < b := Nat.lt_of_succ_lt hb
      have hless : n / b < n :=
        Nat.div_lt_self (Nat.lt_of_lt_of_le hpos (Nat.le_of_not_lt hle)) hb
      intro h
      rcases List.mem_append.1 h with h | h
      · exact ih _ hless h
      · exact ⟨n % b, Nat.mod_lt n hpos, List.mem_singleton.1 h⟩

/-- The digits of a number have no white space, in bases up to the usual one of
character codes. -/
theorem isSolid_toDigits {b : Nat} (hb : 1 < b) (hle : b ≤ 16) (n : Nat) :
    IsSolid (Nat.toDigits b n) := by
  have hdigit : ∀ d : Fin 16, isBlank (Nat.digitChar d) = false := by decide
  intro c hc
  obtain ⟨d, hd, rfl⟩ := exists_of_mem_toDigits hb n hc
  exact hdigit ⟨d, Nat.lt_of_lt_of_le hd hle⟩

/-- A natural number in a message is on one line. -/
theorem oneLine_toString (n : Nat) : OneLine (toString n).toList := by
  rw [Nat.toString_eq_repr, Nat.toList_repr]
  exact (isSolid_toDigits (by decide) (by decide) n).oneLine

/-! ## Quotations -/

/-- No line break has an appearance of its own. -/
theorem isShown_of_mem_lineBreaks {c : Char} (h : c ∈ lineBreaks) :
    isShown c = false := by
  have hall : lineBreaks.all isInvisible = true := by decide +kernel
  have hinvisible : isInvisible c = true := List.all_eq_true.1 hall c h
  rw [isShown, hinvisible, Bool.not_true, Bool.and_false]

/-- A character that is named by its number is on one line. -/
theorem oneLine_numbered (c : Char) : OneLine (numbered c) := by
  have hdigits : OneLine (Nat.toDigits 16 c.toNat) :=
    (isSolid_toDigits (by decide) (by decide) c.toNat).oneLine
  have hopening : OneLine ['\\', 'u', '\x7b'] := by decide
  have hclosing : OneLine ['\x7d'] := by decide
  exact oneLine_append_iff.2
    ⟨hopening, oneLine_append_iff.2 ⟨hdigits, hclosing⟩⟩

/-- **A character is quoted on one line.** -/
theorem oneLine_quotedChar (c : Char) : OneLine (quotedChar c) := by
  have hescapes : OneLine ['\\', '"'] ∧ OneLine ['\\', '\\']
      ∧ OneLine ['\\', 'n'] ∧ OneLine ['\\', 'r'] ∧ OneLine ['\\', 't']
      ∧ OneLine ['\\', '0'] := by decide
  obtain ⟨hquote, hbackslash, hfeed, hreturn, htab, hnul⟩ := hescapes
  unfold quotedChar
  split
  · exact hquote
  split
  · exact hbackslash
  split
  · exact hfeed
  split
  · exact hreturn
  split
  · exact htab
  split
  · exact hnul
  split
  · next hshown =>
    refine List.forall_mem_singleton.2 fun hbreak => ?_
    exact Bool.false_ne_true
      ((isShown_of_mem_lineBreaks hbreak).symm.trans hshown)
  · exact oneLine_numbered c

/-- **A quotation is on one line**, whatever is quoted. -/
theorem oneLine_quoted (text : List Char) : OneLine (quoted text) := by
  have hquote : '"' ∉ lineBreaks := by decide
  refine oneLine_cons_iff.2 ⟨hquote, oneLine_append_iff.2 ⟨?_, ?_⟩⟩
  · intro c hc
    obtain ⟨d, -, hd⟩ := List.mem_flatMap.1 hc
    exact oneLine_quotedChar d c hd
  · exact List.forall_mem_singleton.2 hquote

theorem oneLine_quotedString (text : String) :
    OneLine (quotedString text).toList := by
  rw [quotedString, String.toList_ofList]
  exact oneLine_quoted text.toList

end Text

/-! ## Numbers of a catalogue -/

/-- The text of a decimal has no white space. -/
theorem Decimal.isSolid_text (d : Decimal) : Text.IsSolid d.text := by
  have hdigits : ∀ n, Text.IsSolid (Nat.toDigits 10 n) :=
    Text.isSolid_toDigits (by decide) (by decide)
  unfold text positional
  refine (hdigits _).append ?_
  split
  · exact fun c hc => absurd hc List.not_mem_nil
  · refine Text.IsSolid.cons (by decide) (Text.IsSolid.append ?_ (hdigits _))
    intro c hc
    rw [List.eq_of_mem_replicate hc]
    decide

/-- The text of a double has no white space, whether it is a number or not. -/
theorem Binary64.isSolid_text (x : Binary64) : Text.IsSolid x.text := by
  have hbody : Text.IsSolid
      (if x.isFinite then x.shortest.text else ['i', 'n', 'f']) := by
    split
    · exact x.shortest.isSolid_text
    · decide
  unfold text
  split
  · decide
  · dsimp only
    split
    · exact Text.IsSolid.cons (by decide) hbody
    · exact hbody

/-- **The text of a number has no white space.** -/
theorem Number.isSolid_text (n : Number) : Text.IsSolid n.text := by
  cases n with
  | integer v =>
    exact Numeral.isSolid_of_isIntegerChar fun _ =>
      Numeral.isIntegerChar_of_mem_integerText
  | real x => exact x.isSolid_text

end CanCatalog
