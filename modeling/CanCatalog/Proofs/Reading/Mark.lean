import CanCatalog.Proofs.Reading.Invariant
import CanCatalog.Proofs.Reading.Sources

/-!
# Byte order marks

Some editors put a byte order mark at the front of a file, and it is meant to be
ignored. It is three bytes of UTF-8 and one character. The reading takes that
character off the first line, and so a mark before a text that has none changes
nothing. Nor does it before a stream, whether or not the stream is UTF-8: the
three bytes are decoded with the first line, and this line can be decoded with
them exactly if it can be decoded without.

The first line is the only one. A mark at the front of a later line is a
character like others there, and as it is no white space it is part of the first
word. That word is no keyword, and so the line is skipped.

A file that is not UTF-8 is another matter. It is taken for Latin-1 as a whole,
and then the three bytes are three characters, of which none is a byte order
mark. They stand in front of the first line and become part of its first word.
What the line was does not matter any more: it is of no concern now, as if it
were blank. So a mark before such a file costs it the first line, and if a
message began there, the message is lost and its signals are out of place.
-/

namespace CanCatalog

/-- **The bytes of a byte order mark** in UTF-8. -/
def markBytes : List UInt8 := [0xEF, 0xBB, 0xBF]

namespace Text.Utf8

/-! ## The mark as a character -/

/-- The bytes of a byte order mark are decoded to it, whatever follows. -/
theorem decode_markBytes_append (bytes : List UInt8) :
    decode (markBytes ++ bytes) = (decode bytes).map (byteOrderMark :: ·) := by
  have hmark : three? 0xEF 0xBB 0xBF = some byteOrderMark := by decide
  show decode (0xEF :: 0xBB :: 0xBF :: bytes) = _
  rw [decode.eq_def]
  simp only
  rw [if_neg (by decide), if_neg (by decide), if_pos (by decide), hmark]
  rfl

/-- A character in two bytes is below `0x800`. -/
theorem toNat_lt_of_two? {a b : UInt8} {c : Char} (h : two? a b = some c) :
    c.toNat < 0x800 := by
  obtain ⟨n, hn, hscalar⟩ := Option.bind_eq_some_iff.1 h
  have hb := continuation?_eq_some_iff.1 hn
  rw [(toNat_of_scalar? hscalar).1]
  omega

/-- The only three bytes of a byte order mark. -/
theorem eq_markBytes_of_three? {a b c : UInt8} (hlead : a.toNat / 16 = 14)
    (h : three? a b c = some byteOrderMark) : [a, b, c] = markBytes := by
  obtain ⟨n, hn, h⟩ := Option.bind_eq_some_iff.1 h
  obtain ⟨m, hm, hscalar⟩ := Option.bind_eq_some_iff.1 h
  have hb := continuation?_eq_some_iff.1 hn
  have hc := continuation?_eq_some_iff.1 hm
  have hvalue : 0xFEFF = (a.toNat % 16 * 64 + n) * 64 + m :=
    (toNat_of_scalar? hscalar).1
  have ha : a.toNat = (0xEF : UInt8).toNat := by
    show a.toNat = 0xEF
    omega
  have hb' : b.toNat = (0xBB : UInt8).toNat := by
    show b.toNat = 0xBB
    omega
  have hc' : c.toNat = (0xBF : UInt8).toNat := by
    show c.toNat = 0xBF
    omega
  rw [UInt8.toNat_inj.1 ha, UInt8.toNat_inj.1 hb', UInt8.toNat_inj.1 hc']
  rfl

/-- A character in four bytes is not below `0x10000`. -/
theorem le_toNat_of_four? {a b c d : UInt8} {ch : Char}
    (h : four? a b c d = some ch) : 0x10000 ≤ ch.toNat := by
  obtain ⟨n, -, h⟩ := Option.bind_eq_some_iff.1 h
  obtain ⟨m, -, h⟩ := Option.bind_eq_some_iff.1 h
  obtain ⟨k, -, h⟩ := Option.bind_eq_some_iff.1 h
  exact le_toNat_of_scalar? h

/-- The first of the characters that were decoded. -/
theorem head_of_map_decode {c d : Char} {rest : List UInt8} {text : List Char}
    (h : (decode rest).map (c :: ·) = some (d :: text)) : c = d := by
  obtain ⟨front, -, heq⟩ := Option.map_eq_some_iff.1 h
  exact (List.cons.inj heq).1

/-- **A byte order mark has no other bytes.** -/
theorem markBytes_prefix_of_decode {bytes : List UInt8} {text : List Char}
    (h : decode bytes = some (byteOrderMark :: text)) :
    markBytes <+: bytes := by
  have hvalue : byteOrderMark.toNat = 0xFEFF := by decide
  cases bytes with
  | nil =>
    rw [decode_nil] at h
    exact absurd (Option.some.inj h) (List.cons_ne_nil _ _).symm
  | cons a bytes =>
    rw [decode.eq_def] at h
    simp only at h
    -- of the four forms only the one of three bytes has numbers of this size
    split at h
    · next small =>
      have hnat := toNat_ofNat_of_lt small
      rw [head_of_map_decode h] at hnat
      omega
    split at h
    · split at h
      · obtain ⟨c, hc, h⟩ := Option.bind_eq_some_iff.1 h
        have hsmall := toNat_lt_of_two? hc
        rw [head_of_map_decode h] at hsmall
        omega
      · exact absurd h (by simp)
    split at h
    · next hlead =>
      split at h
      · next b d rest =>
        obtain ⟨c, hc, h⟩ := Option.bind_eq_some_iff.1 h
        rw [head_of_map_decode h] at hc
        exact ⟨rest, by rw [← eq_markBytes_of_three? hlead hc]; rfl⟩
      · exact absurd h (by simp)
    split at h
    · split at h
      · obtain ⟨c, hc, h⟩ := Option.bind_eq_some_iff.1 h
        have hlarge := le_toNat_of_four? hc
        rw [head_of_map_decode h] at hlarge
        omega
      · exact absurd h (by simp)
    · exact absurd h (by simp)

end Text.Utf8

namespace Text

/-! ## The mark as three characters -/

/-- The bytes of a byte order mark in Latin-1, none of which is one. -/
theorem latin1_markBytes_append (bytes : List UInt8) :
    latin1 (markBytes ++ bytes) = 'ï' :: '»' :: '¿' :: latin1 bytes := by
  unfold latin1
  rw [List.map_append]
  rfl

end Text

namespace Reading

open Statement (Begins messageKeyword signalKeyword)

/-! ## A mark before a text -/

/-- A text that is not empty has the same lines behind a byte order mark. -/
theorem linesOf_mark_cons {text : List Char} (hne : text ≠ [])
    (h : text.head? ≠ some byteOrderMark) :
    linesOf (byteOrderMark :: text) = linesOf text := by
  have hcut : (Text.Lines.ofChars (byteOrderMark :: text)).toList
      = (Text.Lines.ofChars text).toList.modifyHead (byteOrderMark :: ·) :=
    Text.Lines.toList_cut_cons (by decide) (by decide) hne
  rw [linesOf_of_head?_ne h]
  unfold linesOf
  rw [hcut]
  cases (Text.Lines.ofChars text).toList with
  | nil => rfl
  | cons first rest => rfl

/-- **A byte order mark before a text is ignored.** If there is nothing else it
is still a line, but an empty one. -/
theorem outcome_ofText_mark_cons (o : Options) {text : List Char}
    (h : text.head? ≠ some byteOrderMark) :
    (ofText o (byteOrderMark :: text)).outcome = (ofText o text).outcome := by
  rw [outcome_ofText, outcome_ofText]
  by_cases hne : text = []
  · subst hne
    rfl
  · rw [linesOf_mark_cons hne h]

/-! ## A mark before a stream -/

/-- The bytes of a byte order mark are decoded with the line they stand
before. -/
theorem decodedLine_markBytes_append (line : List UInt8) :
    decodedLine (markBytes ++ line)
      = (decodedLine line).map (byteOrderMark :: ·) := by
  unfold decodedLine
  rw [Text.Utf8.decode_markBytes_append]
  cases Text.Utf8.decode line <;> rfl

/-- A line that does not begin with the bytes of a byte order mark does not
begin with one. -/
theorem head?_ne_of_decodedLine {bytes : List UInt8} {line : List Char}
    (h : decodedLine bytes = .ok line) (hmark : ¬ markBytes <+: bytes) :
    line.head? ≠ some byteOrderMark := by
  intro hhead
  obtain ⟨rest, rfl⟩ := List.head?_eq_some_iff.1 hhead
  unfold decodedLine at h
  cases hdecode : Text.Utf8.decode bytes with
  | none =>
    rw [hdecode] at h
    exact absurd h (by simp)
  | some text =>
    rw [hdecode] at h
    obtain rfl := Except.ok.inj h
    exact hmark (Text.Utf8.markBytes_prefix_of_decode hdecode)

/-- A reading begins in the same way with a byte order mark and without. -/
theorem readOn_start_mark (o : Options) {entry : Entry}
    (h : ∀ line, entry = .ok line → line.head? ≠ some byteOrderMark)
    (rest : List Entry) :
    readOn o .start (entry.map (byteOrderMark :: ·) :: rest)
      = readOn o .start (entry :: rest) := by
  cases entry with
  | error fault => rfl
  | ok line =>
    have hseen : Progress.start.seen (byteOrderMark :: line)
        = Progress.start.seen line := by
      show withoutMark (byteOrderMark :: line) = withoutMark line
      rw [withoutMark_mark_cons, withoutMark_of_head?_ne (h line rfl)]
    have hstep := Progress.step_congr_seen o hseen
    show readOn o .start (.ok (byteOrderMark :: line) :: rest) = _
    rw [readOn, readOn, hstep]

/-- **A byte order mark before a stream changes nothing**, not even a record,
unless there is nothing else. -/
theorem ofStream_markBytes_append (o : Options) {bytes : List UInt8}
    (hne : bytes ≠ []) (hmark : ¬ markBytes <+: bytes) :
    ofStream o (markBytes ++ bytes) = ofStream o bytes := by
  have hlines : (Text.Lines.ofBytes bytes).toList ≠ [] :=
    Text.Lines.toList_cut_ne_nil hne
  obtain ⟨first, rest, hfirst⟩ := List.exists_cons_of_ne_nil hlines
  have hboth : (Text.Lines.ofBytes (markBytes ++ bytes)).toList
      = (markBytes ++ first) :: rest := by
    show (Text.Lines.cut 10 13 (0xEF :: 0xBB :: 0xBF :: bytes)).toList = _
    rw [Text.Lines.toList_cut_cons (by decide) (by decide) (List.cons_ne_nil _ _),
      Text.Lines.toList_cut_cons (by decide) (by decide) (List.cons_ne_nil _ _),
      Text.Lines.toList_cut_cons (by decide) (by decide) hne]
    show (((Text.Lines.ofBytes bytes).toList.modifyHead _).modifyHead
      _).modifyHead _ = _
    rw [hfirst]
    rfl
  have hprefix : first <+: bytes := Text.Lines.prefix_of_toList_cut hfirst
  unfold ofStream ofEntries
  rw [hboth, hfirst, List.map_cons, List.map_cons,
    decodedLine_markBytes_append, readOn_start_mark]
  exact fun line hline => head?_ne_of_decodedLine hline fun hfront =>
    hmark (hfront.trans hprefix)

/-- **A byte order mark before a stream is ignored.** -/
theorem outcome_ofStream_markBytes_append (o : Options) {bytes : List UInt8}
    (hmark : ¬ markBytes <+: bytes) :
    (ofStream o (markBytes ++ bytes)).outcome = (ofStream o bytes).outcome := by
  by_cases hne : bytes = []
  · subst hne
    have hboth : Text.Utf8.decode (markBytes ++ []) = some [byteOrderMark] := by
      rw [Text.Utf8.decode_markBytes_append, Text.Utf8.decode_nil]
      rfl
    rw [ofStream_of_decode o hboth, ofStream_of_decode o Text.Utf8.decode_nil]
    exact outcome_ofText_mark_cons o (by simp)
  · rw [ofStream_markBytes_append o hne hmark]

/-! ## A mark before a later line -/

/-- **A line with a byte order mark is of no concern**, whatever follows the
mark. -/
theorem ofLine_mark_cons (messageOpen : Bool) (line : List Char) :
    Statement.ofLine messageOpen (byteOrderMark :: line) = .ok .other := by
  have hblank : Text.isBlank byteOrderMark = false := by decide
  cases Statement.kind (byteOrderMark :: line) with
  | blank hwords _ =>
    obtain ⟨word, rest, hcons⟩ := Text.exists_words_cons hblank line
    exact absurd (hcons.symm.trans hwords) (List.cons_ne_nil _ _)
  | message hbegins _ => exact absurd (hbegins.head?_eq hblank) (by decide)
  | signal hbegins _ _ => exact absurd (hbegins.head?_eq hblank) (by decide)
  | other _ _ _ _ heq => exact heq messageOpen

/-- **Behind the first line, a line with a byte order mark is skipped.** -/
theorem step_mark_cons (o : Options) {p : Progress} (hp : p.lines ≠ 0)
    (line : List Char) :
    p.step o (byteOrderMark :: line)
      = ⟨.ok p.advance,
          [.skipped (p.lines + 1) (String.ofList (byteOrderMark :: line))]⟩ := by
  have hseen : p.seen (byteOrderMark :: line) = byteOrderMark :: line :=
    if_neg hp
  have hother : Statement.ofLine p.current.isSome
      (p.seen (byteOrderMark :: line)) = .ok .other := by
    rw [hseen, ofLine_mark_cons]
  rw [Progress.step_of_ok o hother, hseen]
  rfl

/-- **A byte order mark is for the first line.** Before a text that has none it
is ignored, and the outcome is the same catalogue or the same error, with what
the error quotes. Before a stream that has none it is ignored as well, whether
the stream is UTF-8 or not. And behind the first line, wherever a reading
stands, a line that begins with a byte order mark is of no concern, whatever
follows the mark: it is skipped, and it leaves the catalogue and the message
that is being defined as they were. -/
theorem mark_is_for_first_line (o : Options) :
    (∀ text : List Char, text.head? ≠ some byteOrderMark →
      (ofText o (byteOrderMark :: text)).outcome = (ofText o text).outcome)
    ∧ (∀ bytes : List UInt8, ¬ markBytes <+: bytes →
      (ofStream o (markBytes ++ bytes)).outcome = (ofStream o bytes).outcome)
    ∧ ∀ (p : Progress) (line : List Char), p.lines ≠ 0 →
      line.head? = some byteOrderMark →
        (∀ messageOpen, Statement.ofLine messageOpen line = .ok .other)
        ∧ ∃ q, p.step o line
              = ⟨.ok q, [.skipped (p.lines + 1) (String.ofList line)]⟩
            ∧ q.catalog = p.catalog ∧ q.current = p.current
            ∧ q.lines = p.lines + 1 := by
  refine ⟨fun text h => outcome_ofText_mark_cons o h,
    fun bytes h => outcome_ofStream_markBytes_append o h, ?_⟩
  intro p line hp hhead
  obtain ⟨rest, rfl⟩ := List.head?_eq_some_iff.1 hhead
  exact ⟨fun messageOpen => ofLine_mark_cons messageOpen rest,
    p.advance, step_mark_cons o hp rest, rfl, rfl, rfl⟩

/-! ## A first line that is of no concern -/

/-- **A first line that begins neither a message nor a signal** does nothing but
count. -/
theorem readLine_start_of_not_begins {o : Options} {line : List Char}
    (hm : ¬ Begins messageKeyword line) (hs : ¬ Begins signalKeyword line) :
    Progress.start.readLine o line = .ok Progress.start.advance := by
  refine Progress.coherent_start.readLine_eq_ok_iff.2 ?_
  cases Statement.kind line with
  | blank _ heq => exact ⟨.blank, heq _, rfl, rfl⟩
  | message hbegins _ => exact absurd hbegins hm
  | signal hbegins _ _ => exact absurd hbegins hs
  | other _ _ _ _ heq => exact ⟨.other, heq _, rfl, rfl⟩

/-- **A text with its first line wiped out**: the line feed that ended it is
still there. -/
def wipeFirst (text : List Char) : List Char := text.dropWhile (· != '\n')

/-- What ends the first line and follows it remains. -/
theorem wipeFirst_append {front : List Char} (h : '\n' ∉ front)
    (back : List Char) :
    wipeFirst (front ++ back) = wipeFirst back :=
  List.dropWhile_append_of_pos fun _ hc =>
    bne_iff_ne.2 fun heq => h (heq ▸ hc)

/-- Nothing remains of a text that is one line. -/
theorem wipeFirst_of_not_mem {text : List Char} (h : '\n' ∉ text) :
    wipeFirst text = [] := by
  rw [← List.append_nil text, wipeFirst_append h]
  rfl

/-- **A first line that defines nothing may be wiped out.** -/
theorem outcome_ofText_wipeFirst (o : Options) {text : List Char}
    (h : ∀ line, (linesOf text).head? = some line →
      ¬ Begins messageKeyword line ∧ ¬ Begins signalKeyword line) :
    (ofText o (wipeFirst text)).outcome = (ofText o text).outcome := by
  rw [outcome_ofText, outcome_ofText]
  by_cases hmem : '\n' ∈ text
  · obtain ⟨front, back, rfl, hfront⟩ := List.eq_append_cons_of_mem hmem
    have hwiped : wipeFirst (front ++ '\n' :: back) = [] ++ '\n' :: back :=
      wipeFirst_append hfront _
    have hblank : Progress.start.readLine o [] = .ok Progress.start.advance :=
      readLine_start_of_not_begins (by decide) (by decide)
    rw [linesOf_append_cons hfront] at h ⊢
    obtain ⟨hm, hs⟩ := h _ rfl
    rw [hwiped, linesOf_append_cons List.not_mem_nil, Progress.readLines_cons,
      Progress.readLines_cons, readLine_start_of_not_begins hm hs]
    show Except.map _ ((Progress.start.readLine o []).bind _) = _
    rw [hblank]
  · have hnone : linesOf [] = [] := rfl
    rw [wipeFirst_of_not_mem hmem, hnone]
    rw [linesOf_of_not_mem hmem] at h ⊢
    split
    · rfl
    · next hne =>
      -- one line that defines nothing leaves the catalogue empty
      rw [if_neg hne] at h
      obtain ⟨hm, hs⟩ := h _ rfl
      rw [Progress.readLines_singleton, readLine_start_of_not_begins hm hs]
      rfl

/-! ## A mark before a file -/

/-- A text and its first line begin alike, unless a line end or a byte order
mark is in front. -/
theorem head?_of_linesOf_cons {c : Char} (hfeed : c ≠ '\n')
    (hreturn : c ≠ '\r') (hmark : c ≠ byteOrderMark) {text : List Char}
    (hne : text ≠ []) {line : List Char}
    (h : (linesOf (c :: text)).head? = some line) :
    ∃ rest, line = c :: rest := by
  have hcut : (Text.Lines.ofChars (c :: text)).toList
      = (Text.Lines.ofChars text).toList.modifyHead (c :: ·) :=
    Text.Lines.toList_cut_cons hfeed hreturn hne
  have hhead : (c :: text).head? ≠ some byteOrderMark :=
    fun heq => hmark (Option.some.inj heq)
  rw [linesOf_of_head?_ne hhead, hcut] at h
  cases hlines : (Text.Lines.ofChars text).toList with
  | nil =>
    rw [hlines] at h
    exact absurd h (by simp)
  | cons first rest =>
    rw [hlines] at h
    exact ⟨first, (Option.some.inj h).symm⟩

/-- **In Latin-1 a byte order mark wipes out the first line.** -/
theorem outcome_ofText_latin1_mark (o : Options) (bytes : List UInt8) :
    (ofText o (Text.latin1 (markBytes ++ bytes))).outcome
      = (ofText o (wipeFirst (Text.latin1 bytes))).outcome := by
  rw [Text.latin1_markBytes_append]
  have hfront : '\n' ∉ ['ï', '»', '¿'] := by decide
  refine Eq.trans (outcome_ofText_wipeFirst o fun line hline => ?_).symm
    (congrArg (fun text => (ofText o text).outcome)
      (wipeFirst_append hfront (Text.latin1 bytes)))
  obtain ⟨rest, rfl⟩ := head?_of_linesOf_cons (by decide) (by decide)
    (by decide) (List.cons_ne_nil _ _) hline
  -- neither keyword begins as the bytes of a mark do
  have hblank : Text.isBlank 'ï' = false := by decide
  exact ⟨fun h => absurd (h.head?_eq hblank) (by decide),
    fun h => absurd (h.head?_eq hblank) (by decide)⟩

/-- **A byte order mark before a file.** If the file is UTF-8 and does not begin
with a byte order mark itself, nothing changes. If it is not UTF-8, the first
line is wiped out; this changes nothing if the line begins neither a message nor
a signal. -/
theorem mark_before_file (o : Options) (label : String)
    (bytes : List UInt8) :
    (∀ text, Text.Utf8.decode bytes = some text → ¬ markBytes <+: bytes →
      (ofFile o label (.ok (markBytes ++ bytes))).outcome
        = (ofFile o label (.ok bytes)).outcome)
    ∧ (Text.Utf8.decode bytes = none →
      (ofFile o label (.ok (markBytes ++ bytes))).outcome
          = (ofText o (wipeFirst (Text.latin1 bytes))).outcome
        ∧ ((∀ line, (linesOf (Text.latin1 bytes)).head? = some line →
              ¬ Begins messageKeyword line ∧ ¬ Begins signalKeyword line) →
            (ofFile o label (.ok (markBytes ++ bytes))).outcome
              = (ofFile o label (.ok bytes)).outcome)) := by
  constructor
  · intro text htext hmark
    have hboth : Text.Utf8.decode (markBytes ++ bytes)
        = some (byteOrderMark :: text) := by
      rw [Text.Utf8.decode_markBytes_append, htext]
      rfl
    have hhead : text.head? ≠ some byteOrderMark := by
      intro hhead
      obtain ⟨rest, rfl⟩ := List.head?_eq_some_iff.1 hhead
      exact hmark (Text.Utf8.markBytes_prefix_of_decode htext)
    rw [outcome_ofFile_of_decode o label hboth,
      outcome_ofFile_of_decode o label htext, outcome_ofText_mark_cons o hhead]
  · intro htext
    have hboth : Text.Utf8.decode (markBytes ++ bytes) = none := by
      rw [Text.Utf8.decode_markBytes_append, htext]
      rfl
    rw [outcome_ofFile_of_decode_eq_none o label hboth,
      outcome_ofFile_of_decode_eq_none o label htext,
      outcome_ofText_latin1_mark]
    exact ⟨rfl, outcome_ofText_wipeFirst o⟩

/-- A file in Latin-1: a message with one signal, whose unit has a degree
sign. -/
def degreeFile : List UInt8 :=
  "BO_ 1 A: 8 X\nSG_ S : 0|8 (1,0) [0|255] ".toList.map Char.toUInt8
    ++ [0xB0, 0x43, 0x0A]

/-- **Not every byte order mark before a file is ignored.** Without it the file
is read, and with it the signal is out of place. -/
theorem mark_before_degreeFile :
    ¬ markBytes <+: degreeFile
    ∧ (∃ c, (ofFile .default "degree" (.ok degreeFile)).outcome = .ok c
      ∧ (c.get? 1).any (fun m => (m.signal? "S").isSome) = true)
    ∧ (ofFile .default "degree" (.ok (markBytes ++ degreeFile))).outcome
      = .error (.atLine 2
          (.strayLine "SG_ S : 0|8 (1,0) [0|255] \u00B0C")) := by
  refine ⟨by decide +kernel, Except.exists_of_any (by decide +kernel), ?_⟩
  have hmap : (ofFile .default "degree"
        (.ok (markBytes ++ degreeFile))).outcome.map (fun _ => ())
      = .error (.atLine 2
          (.strayLine "SG_ S : 0|8 (1,0) [0|255] \u00B0C")) := by
    decide +kernel
  exact Except.map_eq_error_iff.1 hmap

end Reading

end CanCatalog
