import CanCatalog.Proofs.Reading.Continuation
import CanCatalog.Proofs.Statement.Written

/-!
# Texts that are written are read back

A catalogue can be written down block by block: a message, the signals that
belong to it, and perhaps blank lines before the next block. Blocks may repeat
an identifier, and a block may repeat a name; this is not forbidden, and what
comes last counts.

Reading such a text gives what was written. The two go together line by line:
the line of a message stores it without signals, each line of a signal adds to
the message stored last, and a blank line adds nothing. So a block as a whole
stores one message, and a text stores one message after the other.
-/

namespace CanCatalog

open Statement (Begins States MessageLine SignalLine messageKeyword
  signalKeyword)

/-! ## What is written -/

/-- **A line of white space**, or an empty one. -/
structure BlankLine where
  /-- The characters of the line. -/
  content : List Char
  /-- All of them are white space. -/
  blank : ∀ c ∈ content, Text.isBlank c = true
  /-- None of them is a line feed. -/
  oneLine : '\n' ∉ content
  /-- How the line is ended. -/
  ending : Text.LineEnd

/-- A blank line and its end. -/
def BlankLine.line (l : BlankLine) : Text.EndedLine := ⟨l.content, l.ending⟩

/-- **A message with its signals**, and the blank lines behind it. -/
structure Block where
  /-- The line of the message. -/
  header : MessageLine
  /-- The lines of its signals. -/
  signals : List SignalLine
  /-- The blank lines behind them. -/
  gap : List BlankLine

namespace Block

/-- The lines of a block. -/
def lines (b : Block) : List Text.EndedLine :=
  b.header.line :: (b.signals.map SignalLine.line ++ b.gap.map BlankLine.line)

/-- **The message that a block defines**: its signals are added to it one after
the other. -/
def message (b : Block) : Message :=
  b.signals.foldl (fun m l => m.put l.name l.signal) b.header.message

/-- The text of some blocks. -/
def textOf (blocks : List Block) : List Char :=
  Text.written (blocks.flatMap lines)

/-- **The catalogue that blocks define**: their messages are stored one after
the other. -/
def catalogOf (blocks : List Block) : Catalog :=
  blocks.foldl (fun c b => c.insert b.message) .empty

example : textOf
    [⟨⟨5, "", by decide, 8, "x", by decide, .returnFeed⟩,
      [⟨"M", by decide, 7, .atSign, 8, by decide, -1, 0, 0, 1, "d", by decide,
        .feed⟩], []⟩]
      = "BO_ 5 : 8 x\r\n SG_ M : 7@8 (-1,0) [0|1] d\n".toList := by
  decide +kernel

end Block

/-! ## The last of its key -/

/-- **In a table that is filled one item after another, the last item of a key
is found**, or else what was there before. -/
theorem lookup_foldl {σ ι κ ν : Type} [DecidableEq κ] (get : σ → κ → Option ν)
    (put : σ → ι → σ) (key : ι → κ) (val : ι → ν)
    (hput : ∀ s i k,
      get (put s i) k = if key i = k then some (val i) else get s k)
    (items : List ι) (s : σ) (k : κ) :
    get (items.foldl put s) k
      = ((items.reverse.find? fun i => key i = k).map val).or (get s k) := by
  induction items generalizing s with
  | nil => rfl
  | cons i items ih =>
    rw [List.foldl_cons, ih, List.reverse_cons, List.find?_append, hput]
    cases hlater : items.reverse.find? fun i => key i = k with
    | some later => rfl
    | none =>
      rw [Option.none_or, List.find?_singleton]
      by_cases hkey : key i = k
      · simp [hkey]
      · simp [hkey]

/-! ## Blocks as messages -/

namespace Block

/-- **A signal is found in a block** if it has the name, and then it is the last
one that has it. -/
theorem signal?_message (b : Block) (name : String) :
    b.message.signal? name
      = (b.signals.reverse.find? fun l => l.name = name).map
        SignalLine.signal := by
  have h := lookup_foldl Message.signal?
    (fun m (l : SignalLine) => m.put l.name l.signal) SignalLine.name
    SignalLine.signal (fun m l => Message.signal?_put m l.name l.signal)
    b.signals b.header.message name
  rw [message, h, MessageLine.message, Message.signal?_empty, Option.or_none]

/-- The signals of a block change nothing else in its message. -/
theorem header_message (b : Block) :
    b.message.id = b.header.id ∧ b.message.genus = b.header.genus
      ∧ b.message.frameBytes = b.header.frameBytes
      ∧ b.message.family = b.header.family := by
  have hfold : ∀ (signals : List SignalLine) (m : Message),
      let m' := signals.foldl (fun m l => m.put l.name l.signal) m
      m'.id = m.id ∧ m'.genus = m.genus ∧ m'.frameBytes = m.frameBytes
        ∧ m'.family = m.family := by
    intro signals
    induction signals with
    | nil => exact fun m => ⟨rfl, rfl, rfl, rfl⟩
    | cons l signals ih => exact fun m => ih (m.put l.name l.signal)
  exact hfold b.signals b.header.message

/-- **A message is found among blocks** if it has the identifier, and then it is
the last one that has it. -/
theorem get?_catalogOf (blocks : List Block) (id : UInt32) :
    (catalogOf blocks).get? id
      = (blocks.reverse.find? fun b => b.header.id = id).map message := by
  have h := lookup_foldl Catalog.get? (fun c (b : Block) => c.insert b.message)
    (fun b => b.header.id) message
    (fun c b id => by rw [Catalog.get?_insert, b.header_message.1])
    blocks .empty id
  rw [catalogOf, h, Catalog.get?_empty, Option.or_none]

end Block

/-! ## Reading line by line -/

namespace Progress

variable {p : Progress}

/-- A line that states something in its place is read without an objection, if
there are no checks. -/
theorem Coherent.readLine_default (h : p.Coherent) {st : Statement}
    {line : List Char} (hst : States st line)
    (hplace : Begins signalKeyword line → p.current.isSome = true) :
    p.readLine .default line = .ok (p.advance.accept st) :=
  h.readLine_eq_ok_iff.2 ⟨st, Statement.ofLine_eq_ok_iff.2 ⟨hst, hplace⟩,
    objection?_eq_none rfl rfl rfl p st, rfl⟩

/-- **Signals are added to the message stored last**, one after the other. -/
theorem Coherent.readLines_signals (c : Catalog) (signals : List SignalLine) :
    ∀ {p : Progress} {m : Message}, p.Coherent → p.current = some m.id →
      p.catalog = c.insert m →
      ∃ q, p.readLines .default (signals.map fun l => l.line.seen) = .ok q
        ∧ q.catalog
          = c.insert (signals.foldl (fun m l => m.put l.name l.signal) m) := by
  induction signals with
  | nil => exact fun _ _ hcatalog => ⟨_, rfl, hcatalog⟩
  | cons l signals ih =>
    intro p m h hcur hcatalog
    have hread := h.readLine_default l.states fun _ => by
      rw [hcur]
      rfl
    have hput : p.catalog.modify m.id (fun m => m.put l.name l.signal)
        = c.insert (m.put l.name l.signal) := by
      rw [hcatalog]
      exact Catalog.modify_insert c m rfl
    rw [accept_signal (p := p.advance) hcur] at hread
    obtain ⟨q, hq, hqc⟩ := ih (m := m.put l.name l.signal)
      (h.of_readLine hread) hcur hput
    refine ⟨q, ?_, hqc⟩
    rw [List.map_cons, readLines_cons, hread]
    exact hq

/-- **Blank lines add nothing.** -/
theorem Coherent.readLines_gap (h : p.Coherent) (gap : List BlankLine) :
    ∃ q, p.readLines .default (gap.map fun l => l.line.seen) = .ok q
      ∧ q.catalog = p.catalog := by
  refine ⟨_, h.readLines_blank fun line hline => ?_, rfl⟩
  obtain ⟨l, -, rfl⟩ := List.mem_map.1 hline
  rw [Text.EndedLine.words_seen]
  exact Text.words_of_forall_isBlank l.blank

/-- **A block stores its message**, whatever was read before. -/
theorem Coherent.readLines_block (h : p.Coherent) (b : Block) :
    ∃ q, p.readLines .default (b.lines.map Text.EndedLine.seen) = .ok q
      ∧ q.catalog = p.catalog.insert b.message := by
  have hread := h.readLine_default b.header.states fun hbegins =>
    absurd (b.header.states.kind.unique hbegins)
      Statement.messageKeyword_ne_signalKeyword
  obtain ⟨q, hq, hqc⟩ := (h.of_readLine hread).readLines_signals p.catalog
    b.signals rfl rfl
  obtain ⟨hqcoh, -⟩ := (h.of_readLine hread).of_readLines hq
  obtain ⟨r, hr, hrc⟩ := hqcoh.readLines_gap b.gap
  refine ⟨r, ?_, hrc.trans hqc⟩
  rw [Block.lines, List.map_cons, List.map_append, List.map_map, List.map_map,
    readLines_cons, hread]
  exact readLines_append_eq_ok_iff.2 ⟨q, hq, hr⟩

/-- **Blocks store their messages one after the other.** -/
theorem Coherent.readLines_blocks (blocks : List Block) :
    ∀ {p : Progress}, p.Coherent →
      ∃ q, p.readLines .default
          ((blocks.flatMap Block.lines).map Text.EndedLine.seen) = .ok q
        ∧ q.catalog
          = blocks.foldl (fun c b => c.insert b.message) p.catalog := by
  induction blocks with
  | nil => exact fun _ => ⟨_, rfl, rfl⟩
  | cons b blocks ih =>
    intro p h
    obtain ⟨q, hq, hqc⟩ := h.readLines_block b
    obtain ⟨r, hr, hrc⟩ := ih (h.of_readLines hq).1
    refine ⟨r, ?_, ?_⟩
    · rw [List.flatMap_cons, List.map_append]
      exact readLines_append_eq_ok_iff.2 ⟨q, hq, hr⟩
    · rw [hrc, hqc, List.foldl_cons]

end Progress

namespace Reading

/-! ## Reading the text -/

/-- Each line of a block is one line. -/
theorem not_mem_content_of_mem_lines (b : Block) :
    ∀ line ∈ b.lines, '\n' ∉ line.content := by
  intro line hline
  rcases List.mem_cons.1 hline with rfl | hline
  · exact Text.not_mem_spaced b.header.isWord_of_mem_words
  · rcases List.mem_append.1 hline with hline | hline
    · obtain ⟨l, -, rfl⟩ := List.mem_map.1 hline
      have hnot := Text.not_mem_spaced l.isWord_of_mem_words
      exact fun hmem => (List.mem_cons.1 hmem).elim (by decide) hnot
    · obtain ⟨l, -, rfl⟩ := List.mem_map.1 hline
      exact l.oneLine

/-- A text that is written begins with a keyword, not with a byte order mark. -/
theorem head?_textOf_ne (blocks : List Block) :
    (Block.textOf blocks).head? ≠ some byteOrderMark := by
  cases blocks with
  | nil => exact fun h => absurd h (by decide)
  | cons b blocks =>
    have hhead : (Block.textOf (b :: blocks)).head? = some 'B' := rfl
    rw [hhead]
    decide

/-- **The lines of a text that is written** are the lines of its blocks. -/
theorem linesOf_textOf (blocks : List Block) :
    linesOf (Block.textOf blocks)
      = (blocks.flatMap Block.lines).map Text.EndedLine.seen := by
  rw [linesOf_of_head?_ne (head?_textOf_ne blocks)]
  refine Text.Lines.toList_ofChars_written fun line hline => ?_
  obtain ⟨b, -, hb⟩ := List.mem_flatMap.1 hline
  exact not_mem_content_of_mem_lines b line hb

/-- **What is written is read back.** A text made of blocks is read to the
catalogue that the blocks define, if there are no checks. In it, the message
under an identifier is that of the last block which has it, with all that was
written in its line; and the signal of a name is the last one of the block that
has it, with all that was written in its line and no value. -/
theorem read_written (blocks : List Block) :
    (ofText .default (Block.textOf blocks)).outcome
        = .ok (Block.catalogOf blocks)
      ∧ (∀ id, (Block.catalogOf blocks).get? id
          = (blocks.reverse.find? fun b => b.header.id = id).map Block.message)
      ∧ ∀ b ∈ blocks,
        b.message.id = b.header.id ∧ b.message.genus = b.header.genus
        ∧ b.message.frameBytes = b.header.frameBytes
        ∧ b.message.family = b.header.family
        ∧ ∀ name, b.message.signal? name
          = (b.signals.reverse.find? fun l => l.name = name).map
            SignalLine.signal := by
  refine ⟨?_, Block.get?_catalogOf blocks, fun b _ => ?_⟩
  · obtain ⟨q, hq, hqc⟩ :=
      Progress.Coherent.readLines_blocks blocks Progress.coherent_start
    rw [← linesOf_textOf] at hq
    refine outcome_ofText_eq_ok_iff.2 ⟨q, hq, ?_⟩
    rw [Catalog.restrict_keeps rfl, hqc]
    rfl
  · obtain ⟨hid, hgenus, hbytes, hfamily⟩ := b.header_message
    exact ⟨hid, hgenus, hbytes, hfamily, b.signal?_message⟩

end Reading

end CanCatalog
