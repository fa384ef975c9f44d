import CanCatalog.Proofs.Reading.Account
import CanCatalog.Proofs.Statement.Words
import CanCatalog.Proofs.Text.Revision
import Mathlib.Data.List.Forall2

/-!
# Lines that may be left out, and blank lines

A line of no concern leaves no trace but the count of lines. It can be taken out
of a text wherever it stands, inside a block as well as between blocks. A blank
line does leave a trace: it ends the message that is being defined. But a line
that announces a message does not ask whether one is being defined, so before
such a line any number of blank lines makes no difference, and neither does it
at the end of the text.

All lines behind are counted differently then, and this is what is left to be
said: an error is the same error with another number. The proof relates lines of
the original text to what stands for them in the revised one, which is nothing
for a line that is taken out and the line behind some blank lines otherwise
(`Progress.StandsFor`). One line makes the same step as what stands for it,
except for the count; and so does a text, in which the number of a line becomes
the number of lines that stand for it and for the lines before it.

A byte order mark is a danger to all this. It is taken off the first line only,
and where lines are taken out or put in another line may become the first one. So
no line but the first may begin with a mark here, and none may be put in before a
line that does.
-/

namespace CanCatalog

open Statement (Begins OfNoConcern messageKeyword)
open Reading (LineAt)

/-- An error with the number of its line changed. -/
def ReadError.renumber (number : Nat → Nat) : ReadError → ReadError
  | atLine n fault => atLine (number n) fault
  | inSource fault => inSource fault

namespace Progress

/-- **A progress with another count of lines.** -/
def numbered (p : Progress) (lines : Nat) : Progress :=
  { p with lines := lines }

variable {o : Options} {p q r : Progress} {line : List Char}

/-- What is stored and what is being defined decide about a statement, and a
message asks for what is stored only. -/
theorem accept_moved (hcatalog : r.catalog = p.catalog) {st : Statement}
    (hcurrent : r.current = p.current ∨ ∃ m, st = .message m) :
    r.objection? o st = p.objection? o st
      ∧ r.advance.accept st = (p.advance.accept st).numbered (r.lines + 1) := by
  obtain ⟨catalog, current, lines⟩ := p
  obtain ⟨catalog', current', lines'⟩ := r
  dsimp only at hcatalog hcurrent
  subst hcatalog
  rcases hcurrent with rfl | ⟨m, rfl⟩
  · cases st with
    | signal s => cases current' <;> exact ⟨rfl, rfl⟩
    | _ => exact ⟨rfl, rfl⟩
  · exact ⟨rfl, rfl⟩

/-- **A line is read in the same way whatever was counted before.** What was open
does not matter either if the line announces a message. -/
theorem Coherent.readLine_moved (hp : p.Coherent) (hr : r.Coherent)
    (hcatalog : r.catalog = p.catalog)
    (hcurrent : r.current = p.current ∨ Begins messageKeyword line) :
    r.readLine o line
      = ((p.readLine o line).map (·.numbered (r.lines + 1))).mapError
          (.renumber fun _ => r.lines + 1) := by
  have hread : Statement.ofLine r.current.isSome line
      = Statement.ofLine p.current.isSome line := by
    rcases hcurrent with hcurrent | hbegins
    · rw [hcurrent]
    · rw [hbegins.ofLine_message, hbegins.ofLine_message]
  rw [hr.readLine_eq, hp.readLine_eq, hread]
  cases hst : Statement.ofLine p.current.isSome line with
  | error fault => rfl
  | ok st =>
    have hmessage : r.current = p.current ∨ ∃ m, st = .message m :=
      hcurrent.imp_right
        ((Statement.states_of_ofLine hst).begins_message_iff.1 ·)
    obtain ⟨hobjection, haccept⟩ := accept_moved (o := o) hcatalog hmessage
    dsimp only
    rw [hobjection, haccept]
    cases p.objection? o st <;> rfl

/-- **A line of no concern is passed over.** -/
theorem Coherent.readLine_of_ofNoConcern (hp : p.Coherent)
    (h : OfNoConcern line) : p.readLine o line = .ok p.advance := by
  obtain ⟨st, hst⟩ := Statement.wellFormed_of_not_begins h.2.1 h.2.2
  obtain rfl := hst.ofNoConcern_iff.1 h
  exact hp.readLine_eq_ok_iff.2 ⟨.other, Statement.ofLine_eq_ok_iff.2
    ⟨hst, fun hbegins => absurd hbegins h.2.2⟩, rfl, rfl⟩

/-- **What stands for a line** in a revised text. -/
inductive StandsFor : List (List Char) → List Char → Prop where
  /-- Nothing stands for a line of no concern that is taken out. -/
  | erased {line : List Char} (skipped : OfNoConcern line) : StandsFor [] line
  /-- A line stands for itself, behind blank lines if it announces a
  message. -/
  | kept {line : List Char} (blanks : List (List Char))
    (areBlank : ∀ b ∈ blanks, Text.words b = [])
    (neutral : blanks = [] ∨ Begins messageKeyword line) :
    StandsFor (blanks ++ [line]) line

variable {lines : List (List Char)} {blocks : List (List (List Char))}

/-- **A line makes the same step as what stands for it**, except for the count of
lines. -/
theorem StandsFor.readLines_eq (h : StandsFor lines line) (hp : p.Coherent)
    (hr : r.Coherent) (hcatalog : r.catalog = p.catalog)
    (hcurrent : r.current = p.current) :
    r.readLines o lines
      = ((p.readLine o line).map (·.numbered (r.lines + lines.length))).mapError
          (.renumber fun _ => r.lines + lines.length) := by
  cases h with
  | erased skipped =>
    rw [hp.readLine_of_ofNoConcern skipped]
    obtain ⟨catalog, current, n⟩ := p
    obtain ⟨catalog', current', n'⟩ := r
    dsimp only at hcatalog hcurrent
    subst hcatalog hcurrent
    rfl
  | kept blanks areBlank neutral =>
    -- behind blank lines nothing is being defined, which is no matter here
    have hread := hr.readLines_blank (o := o) areBlank
    rw [readLines_append, hread]
    show Progress.readLines o _ [line] = _
    rw [readLines_singleton,
      hp.readLine_moved (hr.of_readLines hread).1 hcatalog
        (neutral.imp_left fun hnil => by rw [if_pos hnil, hcurrent]),
      List.length_append, List.length_singleton]
    rfl

/-- **Lines are read as those that stand for them.** -/
theorem readLines_standsFor (h : List.Forall₂ StandsFor blocks lines)
    (hp : p.Coherent) (hr : r.Coherent) (hcatalog : r.catalog = p.catalog)
    (hcurrent : r.current = p.current) (hq : p.readLines o lines = .ok q) :
    r.readLines o blocks.flatten
      = .ok (q.numbered (r.lines + blocks.flatten.length)) := by
  induction h generalizing p r with
  | nil =>
    obtain rfl := Except.ok.inj hq
    obtain ⟨catalog, current, n⟩ := r
    dsimp only at hcatalog hcurrent
    subst hcatalog hcurrent
    rfl
  | cons hline _ ih =>
    rw [readLines_cons] at hq
    obtain ⟨p', hp', hq⟩ := Except.bind_eq_ok_iff.1 hq
    have hstep := hline.readLines_eq (o := o) hp hr hcatalog hcurrent
    rw [hp'] at hstep
    have hrest := ih (hp.of_readLine hp') (hr.of_readLines hstep).1 rfl rfl hq
    rw [List.flatten_cons, readLines_append, hstep, List.length_append,
      ← Nat.add_assoc]
    exact hrest

/-- **Lines are refused as those that stand for them**, in the last line that
stands for the line in question. This line is not one of no concern. -/
theorem readLines_standsFor_error (h : List.Forall₂ StandsFor blocks lines)
    (hp : p.Coherent) (hr : r.Coherent) (hcatalog : r.catalog = p.catalog)
    (hcurrent : r.current = p.current) {e : ReadError}
    (he : p.readLines o lines = .error e) :
    ∃ k fault, LineAt lines k (¬ OfNoConcern ·)
      ∧ e = .atLine (p.lines + (k + 1)) fault
      ∧ r.readLines o blocks.flatten
        = .error (.atLine (r.lines + (blocks.take (k + 1)).flatten.length)
            fault) := by
  induction h generalizing p r with
  | nil => exact absurd he (by simp)
  | @cons block line blocks lines hline _ ih =>
    have hstep := hline.readLines_eq (o := o) hp hr hcatalog hcurrent
    rw [readLines_cons] at he
    rcases Except.bind_eq_error_iff.1 he with he | ⟨p', hp', he⟩
    · obtain ⟨fault, rfl, -⟩ := hp.readLine_eq_error_iff.1 he
      have hconcern : ¬ OfNoConcern line := fun hskipped =>
        absurd ((hp.readLine_of_ofNoConcern hskipped).symm.trans he) (by simp)
      rw [he] at hstep
      refine ⟨0, fault, ⟨line, rfl, hconcern⟩, rfl, ?_⟩
      rw [List.flatten_cons, readLines_append, hstep]
      simp [Except.map, Except.bind, ReadError.renumber]
    · rw [hp'] at hstep
      obtain ⟨k, fault, hat, rfl, hrest⟩ :=
        ih (hp.of_readLine hp') (hr.of_readLines hstep).1 rfl rfl he
      refine ⟨k + 1, fault, hat, ?_, ?_⟩
      · rw [hp.lines_of_readLine hp', Nat.add_assoc, Nat.add_comm 1]
      · rw [List.flatten_cons, readLines_append, hstep, List.take_succ_cons,
          List.flatten_cons, List.length_append, ← Nat.add_assoc]
        exact hrest

end Progress

namespace Reading

open Progress (StandsFor)
open Text (revise)

/-! ## Marks and blank lines -/

/-- A blank line begins with no byte order mark. -/
theorem head?_ne_of_words_eq_nil {line : List Char}
    (h : Text.words line = []) : line.head? ≠ some byteOrderMark := by
  intro hhead
  obtain ⟨tail, rfl⟩ := List.head?_eq_some_iff.1 hhead
  obtain ⟨word, rest, hwords⟩ :=
    Text.exists_words_cons (c := byteOrderMark) (by decide) tail
  exact absurd (hwords.symm.trans h) (List.cons_ne_nil _ _)

/-- Lines without a byte order mark are read as they are. -/
theorem modifyHead_withoutMark {lines : List (List Char)}
    (h : ∀ line ∈ lines, line.head? ≠ some byteOrderMark) :
    lines.modifyHead withoutMark = lines := by
  cases lines with
  | nil => rfl
  | cons line lines =>
    rw [List.modifyHead_cons,
      withoutMark_of_head?_ne (h line List.mem_cons_self)]

/-- All lines of white space are blank, wherever it stands. -/
theorem words_of_mem_linesBehind {front space line : List Char}
    (hspace : ∀ c ∈ space, Text.isBlank c = true)
    (h : line ∈ linesBehind front space) : Text.words line = [] := by
  have hblank : ∀ line ∈ (Text.Lines.ofChars space).toList,
      Text.words line = [] := fun line hline =>
    Text.words_of_forall_isBlank fun c hc =>
      hspace c (Text.Lines.mem_of_mem_toList_cut hline hc)
  have hlines : linesOf space = (Text.Lines.ofChars space).toList :=
    modifyHead_withoutMark fun line hline =>
      head?_ne_of_words_eq_nil (hblank line hline)
  unfold linesBehind at h
  rw [hlines, ite_self] at h
  exact hblank line h

/-! ## The lines of a revised text -/

variable {drop : Nat → Bool} {gap : Nat → List (List Char)}
variable {text : List Char}

/-- **What stands for a line** at a position in a revised text. -/
def revised (drop : Nat → Bool) (gap : Nat → List (List Char)) (i : Nat)
    (line : List Char) : List (List Char) :=
  (gap i).map (Text.Lines.withoutReturn '\r')
    ++ if drop i then [] else [line]

/-- **Directions to revise a text** that do it no harm: lines of no concern are
taken out, and blank lines are put in before lines that announce a message. No
line other than the first begins with a byte order mark, and nothing is put in
before it if it does. -/
structure Harmless (text : List Char) (drop : Nat → Bool)
    (gap : Nat → List (List Char)) : Prop where
  /-- What is taken out is of no concern. -/
  dropped : ∀ i, drop i = true → LineAt (linesOf text) i OfNoConcern
  /-- What is put in are lines. -/
  areLines : ∀ i, ∀ line ∈ gap i, '\n' ∉ line
  /-- They are blank. -/
  areBlank : ∀ i, ∀ line ∈ gap i, Text.words line = []
  /-- They are put in before lines that announce a message. -/
  inserted : ∀ i, gap i ≠ [] →
    LineAt (linesOf text) i (Begins messageKeyword)
  /-- Only the first line may begin with a byte order mark. -/
  noMark : ∀ line ∈ (Text.Lines.ofChars text).toList.tail,
    line.head? ≠ some byteOrderMark
  /-- Nothing is put in before a byte order mark. -/
  first : gap 0 ≠ [] → text.head? ≠ some byteOrderMark

/-- A blank line is blank without its carriage return. -/
theorem Harmless.words_eq_nil (h : Harmless text drop gap) (i : Nat) :
    ∀ line ∈ (gap i).map (Text.Lines.withoutReturn '\r'),
      Text.words line = [] := by
  intro line hline
  obtain ⟨b, hb, rfl⟩ := List.mem_map.1 hline
  rw [Text.words_withoutReturn]
  exact h.areBlank i b hb

/-- **What stands for the lines of a text does stand for them.** -/
theorem Harmless.standsFor (h : Harmless text drop gap) {i : Nat}
    {line : List Char} (hline : (linesOf text)[i]? = some line) :
    StandsFor (revised drop gap i line) line := by
  have hat : ∀ {P : List Char → Prop}, LineAt (linesOf text) i P → P line :=
    fun ⟨line', hline', hP⟩ => Option.some.inj (hline'.symm.trans hline) ▸ hP
  unfold revised
  cases hdrop : drop i with
  | true =>
    have hskipped := hat (h.dropped i hdrop)
    have hgap : gap i = [] := Classical.not_not.1 fun hne =>
      hskipped.2.1 (hat (h.inserted i hne))
    rw [hgap]
    exact .erased hskipped
  | false =>
    refine .kept _ (h.words_eq_nil i) ?_
    by_cases hgap : gap i = []
    · exact .inl (by rw [hgap]; rfl)
    · exact .inr (hat (h.inserted i hgap))

/-- What is made of each line stands for it, so the whole stands for the
whole. -/
theorem forall₂_mapIdx {f : Nat → List Char → List (List Char)}
    {lines : List (List Char)}
    (h : ∀ i line, lines[i]? = some line → StandsFor (f i line) line) :
    List.Forall₂ StandsFor (lines.mapIdx f) lines := by
  induction lines generalizing f with
  | nil => exact .nil
  | cons line lines ih =>
    rw [List.mapIdx_cons]
    exact .cons (h 0 line rfl) (ih fun i l hl => h (i + 1) l hl)

/-- **Behind the first line nothing begins with a byte order mark**, neither what
was left nor what was put in. -/
theorem Harmless.head?_ne_of_mem (h : Harmless text drop gap)
    {first : List Char} {rest : List (List Char)}
    (hlines : (Text.Lines.ofChars text).toList = first :: rest) :
    ∀ line ∈ (rest.mapIdx fun i => revised drop gap (i + 1)).flatten,
      line.head? ≠ some byteOrderMark := by
  intro line hline
  obtain ⟨block, hblock, hline⟩ := List.mem_flatten.1 hline
  obtain ⟨i, hi, rfl⟩ := List.mem_mapIdx.1 hblock
  rcases List.mem_append.1 hline with hgap | hkept
  · exact head?_ne_of_words_eq_nil (h.words_eq_nil (i + 1) line hgap)
  · split at hkept
    · exact absurd hkept List.not_mem_nil
    · have hmark := h.noMark rest[i]
      rw [hlines] at hmark
      rw [List.mem_singleton.1 hkept]
      exact hmark (List.getElem_mem hi)

/-- **The lines of a harmlessly revised text** are what stands for the lines of
the text, a byte order mark being taken off before. -/
theorem Harmless.linesOf_revise (h : Harmless text drop gap) :
    linesOf (revise drop gap text)
      = ((linesOf text).mapIdx (revised drop gap)).flatten := by
  show ((Text.Lines.ofChars (revise drop gap text)).toList).modifyHead _ = _
  rw [Text.Lines.toList_ofChars_revise h.areLines]
  show (((Text.Lines.ofChars text).toList.mapIdx (revised drop gap)).flatten
    ).modifyHead withoutMark = _
  unfold linesOf
  -- only what stands for the first line can be affected
  cases hlines : (Text.Lines.ofChars text).toList with
  | nil => rfl
  | cons first rest =>
    rw [List.modifyHead_cons, List.mapIdx_cons, List.mapIdx_cons,
      List.flatten_cons, List.flatten_cons]
    unfold revised
    cases hgap : gap 0 with
    | nil =>
      cases drop 0 with
      | true => exact modifyHead_withoutMark (h.head?_ne_of_mem hlines)
      | false => rfl
    | cons b bs =>
      have hblank := h.words_eq_nil 0
      rw [hgap] at hblank
      have hb := head?_ne_of_words_eq_nil (hblank _ List.mem_cons_self)
      have hfirst : first.head? ≠ some byteOrderMark := fun hhead =>
        h.first (by rw [hgap]; exact List.cons_ne_nil _ _)
          (Text.Lines.head?_of_toList_cut hlines hhead)
      rw [withoutMark_of_head?_ne hfirst, List.map_cons, List.cons_append,
        List.cons_append, List.modifyHead_cons, withoutMark_of_head?_ne hb]

/-! ## Numbers of lines -/

/-- How many lines are put in before the line with a number, counted from
one. -/
def insertedBefore (gap : Nat → List (List Char)) (n : Nat) : Nat :=
  ((List.range n).flatMap gap).length

/-- How many lines are taken out before the line with a number. -/
def droppedBefore (drop : Nat → Bool) (n : Nat) : Nat :=
  (List.range (n - 1)).countP drop

theorem insertedBefore_succ (gap : Nat → List (List Char)) (n : Nat) :
    insertedBefore gap (n + 1) = insertedBefore gap n + (gap n).length := by
  unfold insertedBefore
  rw [List.range_succ, List.flatMap_append, List.flatMap_singleton,
    List.length_append]

/-- **How many lines stand for the first lines** of a text: as many, less those
that are taken out, and those that are put in. -/
theorem length_flatten_take_revised (drop : Nat → Bool)
    (gap : Nat → List (List Char)) {lines : List (List Char)} {n : Nat}
    (hn : n ≤ lines.length) :
    ((lines.mapIdx (revised drop gap)).take n).flatten.length
        + (List.range n).countP drop
      = n + insertedBefore gap n := by
  induction n with
  | zero => rfl
  | succ n ih =>
    have hrest := ih (Nat.le_of_succ_le hn)
    have hone : (revised drop gap n lines[n]).length
        + [n].countP drop = (gap n).length + 1 := by
      unfold revised
      cases hdrop : drop n <;> simp [hdrop]
    rw [List.take_add_one, List.getElem?_mapIdx, List.getElem?_eq_getElem hn,
      List.flatten_append, List.length_append, List.range_succ,
      List.countP_append, insertedBefore_succ]
    simp only [Option.map_some, Option.toList_some, List.flatten_singleton]
    omega

/-- **The number of a line that is left**, in a revised text. -/
theorem number_of_kept {lines : List (List Char)} {k : Nat}
    (hk : k < lines.length) (hkept : ¬ drop k = true) :
    ((lines.mapIdx (revised drop gap)).take (k + 1)).flatten.length
      = k + 1 - droppedBefore drop (k + 1) + insertedBefore gap (k + 1) := by
  have hcount := length_flatten_take_revised drop gap (Nat.succ_le_of_lt hk)
  have hle : (List.range k).countP drop ≤ k :=
    Nat.le_trans List.countP_le_length (Nat.le_of_eq List.length_range)
  rw [Nat.succ_eq_add_one, List.range_succ, List.countP_append,
    List.countP_singleton, if_neg hkept, Nat.add_zero] at hcount
  unfold droppedBefore
  rw [Nat.add_sub_cancel]
  omega

/-! ## Reading a revised text -/

/-- **White space at the end** of an ended text has no influence. -/
theorem readLines_append_blank {o : Options} {lines blanks : List (List Char)}
    (hblank : ∀ line ∈ blanks, Text.words line = []) :
    (Progress.start.readLines o (lines ++ blanks)).map
        (fun p => p.catalog.restrict o.keeps)
      = (Progress.start.readLines o lines).map
        fun p => p.catalog.restrict o.keeps := by
  rw [Progress.readLines_append]
  cases hlines : Progress.start.readLines o lines with
  | error e => rfl
  | ok p =>
    have hread := (Progress.of_readLines_start hlines).1.readLines_blank
      (o := o) hblank
    show Except.map _ (p.readLines o blanks) = _
    rw [hread]
    rfl

/-- **White space behind a revised text** is blank lines behind its lines. -/
theorem Harmless.exists_linesOf_append (h : Harmless text drop gap)
    {space : List Char} (hspace : ∀ c ∈ space, Text.isBlank c = true)
    (hended : space = [] ∨ text = [] ∨ text.getLast? = some '\n') :
    ∃ blanks, (∀ line ∈ blanks, Text.words line = [])
      ∧ linesOf (revise drop gap text ++ space)
        = ((linesOf text).mapIdx (revised drop gap)).flatten ++ blanks := by
  rcases hended with rfl | hended
  · refine ⟨[], fun _ hmem => absurd hmem List.not_mem_nil, ?_⟩
    rw [List.append_nil, List.append_nil, h.linesOf_revise]
  · refine ⟨linesBehind (revise drop gap text) space,
      fun line => words_of_mem_linesBehind hspace, ?_⟩
    rw [linesOf_append_ended (Text.ended_revise hended), h.linesOf_revise]

/-- **Lines of no concern can be taken out, and blank lines put in** before lines
that announce a message and at the end of an ended text. The same catalogue is
read, or the same error is met, in a line whose number is less by those that are
taken out before and more by those that are put in. -/
theorem revised_text_is_read_alike (o : Options) {text : List Char}
    {drop : Nat → Bool} {gap : Nat → List (List Char)} {space : List Char}
    (h : Harmless text drop gap)
    (hspace : ∀ c ∈ space, Text.isBlank c = true)
    (hended : space = [] ∨ text = [] ∨ text.getLast? = some '\n') :
    (ofText o (revise drop gap text ++ space)).outcome
      = (ofText o text).outcome.mapError (.renumber fun n =>
          n - droppedBefore drop n + insertedBefore gap n) := by
  obtain ⟨blanks, hblank, hlines⟩ := h.exists_linesOf_append hspace hended
  have hblocks := forall₂_mapIdx fun _ _ hline => h.standsFor hline
  rw [outcome_ofText, outcome_ofText, hlines, readLines_append_blank hblank]
  cases hread : Progress.start.readLines o (linesOf text) with
  | ok p =>
    have hrevised := Progress.readLines_standsFor hblocks
      Progress.coherent_start Progress.coherent_start rfl rfl hread
    rw [hrevised]
    rfl
  | error e =>
    obtain ⟨k, fault, hat, rfl, hrevised⟩ := Progress.readLines_standsFor_error
      hblocks Progress.coherent_start Progress.coherent_start rfl rfl hread
    -- the line that is refused is not among those that are taken out
    have hkept : ¬ drop k = true := fun hdrop => by
      obtain ⟨line, hline, hconcern⟩ := hat
      obtain ⟨line', hline', hskipped⟩ := h.dropped k hdrop
      exact hconcern (Option.some.inj (hline.symm.trans hline') ▸ hskipped)
    rw [hrevised]
    show Except.error (ReadError.atLine (0 + _) fault)
      = Except.error (ReadError.atLine ((fun n =>
          n - droppedBefore drop n + insertedBefore gap n) (0 + (k + 1))) fault)
    rw [Nat.zero_add, Nat.zero_add, number_of_kept hat.lt hkept]

/-- A note, a message, and a signal without a place. -/
def noted : List Char := "NOTE\nBO_ 1 a: 8 b\nSG_ x\n".toList

/-- Without the note, but with two blank lines before the message and one at the
end, the signal is refused in line 4 instead of line 3. -/
theorem revised_text_is_read_alike_noted :
    (ofText .default noted).outcome
        = .error (.atLine 3 (.tooShort 7 2 "SG_ x"))
      ∧ (ofText .default
          (revise (· == 0) (fun i => if i = 1 then [[], [' ']] else []) noted
            ++ ['\n'])).outcome
        = .error (.atLine 4 (.tooShort 7 2 "SG_ x")) := by
  have hlines : linesOf noted
      = ["NOTE".toList, "BO_ 1 a: 8 b".toList, "SG_ x".toList] := by
    decide
  have hharmless : Harmless noted (· == 0)
      (fun i => if i = 1 then [[], [' ']] else []) := by
    have hgap : ∀ i : Nat, ∀ line ∈ if i = 1 then [[], [' ']] else [],
        line = [] ∨ line = [' '] := by
      intro i line hline
      split at hline
      · simpa using hline
      · exact absurd hline List.not_mem_nil
    refine ⟨fun i hi => ?_, fun i line hline => ?_, fun i line hline => ?_,
      fun i hi => ?_, by decide, fun h => absurd rfl h⟩
    · obtain rfl := beq_iff_eq.1 hi
      exact ⟨"NOTE".toList, by rw [hlines]; rfl, by decide⟩
    · rcases hgap i line hline with rfl | rfl <;> decide
    · rcases hgap i line hline with rfl | rfl <;> decide
    · obtain rfl : i = 1 := Classical.not_not.1 fun hne => hi (if_neg hne)
      exact ⟨"BO_ 1 a: 8 b".toList, by rw [hlines]; rfl, by decide⟩
  have hnoted : (ofText .default noted).outcome
      = .error (.atLine 3 (.tooShort 7 2 "SG_ x")) :=
    Except.eq_error_of_decide (by decide +kernel)
  have hspace : ∀ c ∈ ['\n'], Text.isBlank c = true :=
    List.forall_mem_singleton.2 (by decide)
  refine ⟨hnoted, ?_⟩
  rw [revised_text_is_read_alike .default hharmless hspace
    (.inr (.inr (by decide))), hnoted]
  rfl

end Reading

end CanCatalog
