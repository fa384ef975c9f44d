import CanCatalog.Proofs.Outcome
import CanCatalog.Proofs.Reading.Step
import CanCatalog.Proofs.Statement.Kind
import CanCatalog.Proofs.Text.Cut
import CanCatalog.Reading.Source
import Mathlib.Data.List.Induction

/-!
# Reading line after line

A reading is a fold over the lines of its source, and a byte order mark is
the only thing that makes the first line different from the others. So the
mark is taken off once and for all (`Reading.linesOf`), and what is left is
`Progress.readLines`, a plain fold that stops at the first fault.

Three things are then said of it. It can be cut anywhere
(`Progress.readLines_append`). If it fails, there is one line at which it
fails, and it read all lines before that one
(`Progress.readLines_eq_error_iff`). And if it succeeds, what a line preserves
holds at the end (`Progress.readLines_induction`), which is the one induction
along a text that is made here.
-/

namespace CanCatalog

namespace Progress

/-! ## One line -/

/-- **Reads a line** that has no byte order mark; the records are left
out. -/
def readLine (o : Options) (p : Progress) (line : List Char) :
    Except ReadError Progress :=
  ((Statement.ofLine p.current.isSome line).bind fun st =>
    (p.advance.apply o line st).outcome).mapError (.atLine (p.lines + 1))

/-- A line as it is looked at: the first one without its byte order mark. -/
def seen (p : Progress) (line : List Char) : List Char :=
  if p.lines = 0 then withoutMark line else line

/-- A step applies what the line that is looked at states. -/
theorem step_of_ok (o : Options) {p : Progress} {line : List Char}
    {st : Statement}
    (hst : Statement.ofLine p.current.isSome (p.seen line) = .ok st) :
    p.step o line
      = (p.advance.apply o (p.seen line) st).atLine (p.lines + 1) := by
  unfold seen at hst ⊢
  simp only [step, advance, hst]

/-- A step fails with what is wrong with the line that is looked at. -/
theorem step_of_error (o : Options) {p : Progress} {line : List Char}
    {fault : Fault}
    (hst : Statement.ofLine p.current.isSome (p.seen line) = .error fault) :
    p.step o line = ⟨.error (.atLine (p.lines + 1) fault), []⟩ := by
  unfold seen at hst
  simp only [step, advance, hst]
  rfl

/-- A line is read alike if it is looked at alike. -/
theorem step_congr_seen (o : Options) {p : Progress} {line line' : List Char}
    (h : p.seen line = p.seen line') : p.step o line = p.step o line' := by
  cases hst : Statement.ofLine p.current.isSome (p.seen line') with
  | error fault =>
    rw [step_of_error o hst, step_of_error o (h ▸ hst)]
  | ok st =>
    rw [step_of_ok o hst, step_of_ok o (h ▸ hst), h]

/-- **A step reads the line that is looked at.** -/
theorem outcome_step (o : Options) (p : Progress) (line : List Char) :
    (p.step o line).outcome = p.readLine o (p.seen line) := by
  unfold readLine
  cases hst : Statement.ofLine p.current.isSome (p.seen line) with
  | error fault =>
    rw [step_of_error o hst]
    rfl
  | ok st =>
    rw [step_of_ok o hst]
    rfl

/-- **What a line states is held against the options and taken in**, in a coherent
progress. -/
theorem Coherent.apply_ofLine {p : Progress} (h : p.Coherent) (o : Options)
    {line : List Char} {st : Statement}
    (hst : Statement.ofLine p.current.isSome line = .ok st) :
    p.advance.apply o line st
      = match p.objection? o st with
        | some fault => ⟨.error fault, []⟩
        | none => ⟨.ok (p.advance.accept st), p.advance.records line st⟩ := by
  have hopen : ∀ s, st = .signal s → p.advance.current.isSome = true := by
    rintro s rfl
    have hread := Statement.ofLine_eq_ok_iff.1 hst
    exact hread.2 hread.1.kind
  have hobj : p.advance.objection? o st = p.objection? o st := by
    cases st <;> rfl
  rw [← hobj]
  exact h.advance.apply_eq o line st hopen

/-- **How a line is read**, in a coherent progress. -/
theorem Coherent.readLine_eq {p : Progress} (h : p.Coherent) (o : Options)
    (line : List Char) :
    p.readLine o line
      = match Statement.ofLine p.current.isSome line with
        | .error fault => .error (.atLine (p.lines + 1) fault)
        | .ok st =>
          match p.objection? o st with
          | some fault => .error (.atLine (p.lines + 1) fault)
          | none => .ok (p.advance.accept st) := by
  unfold readLine
  cases hst : Statement.ofLine p.current.isSome line with
  | error fault => rfl
  | ok st =>
    show Except.mapError _ (p.advance.apply o line st).outcome = _
    rw [h.apply_ofLine o hst]
    dsimp only
    cases p.objection? o st <;> rfl

/-- **A line is read** if it states something that is in place and that the
options do not object to. -/
theorem Coherent.readLine_eq_ok_iff {p q : Progress} (h : p.Coherent)
    {o : Options} {line : List Char} :
    p.readLine o line = .ok q
      ↔ ∃ st, Statement.ofLine p.current.isSome line = .ok st
        ∧ p.objection? o st = none ∧ q = p.advance.accept st := by
  rw [h.readLine_eq]
  cases Statement.ofLine p.current.isSome line with
  | error fault => simp
  | ok st => cases hobj : p.objection? o st <;> simp [hobj, eq_comm]

/-- **A line is refused** if it does not, and the error carries the number of
the line. -/
theorem Coherent.readLine_eq_error_iff {p : Progress} (h : p.Coherent)
    {o : Options} {line : List Char} {e : ReadError} :
    p.readLine o line = .error e
      ↔ ∃ fault, e = .atLine (p.lines + 1) fault
        ∧ (Statement.ofLine p.current.isSome line = .error fault
          ∨ ∃ st, Statement.ofLine p.current.isSome line = .ok st
            ∧ p.objection? o st = some fault) := by
  rw [h.readLine_eq]
  cases Statement.ofLine p.current.isSome line with
  | error fault => simp [eq_comm]
  | ok st => cases hobj : p.objection? o st <;> simp [hobj, eq_comm]

theorem lines_accept (p : Progress) (st : Statement) :
    (p.accept st).lines = p.lines := by
  cases st with
  | signal s =>
    unfold accept
    cases p.current <;> rfl
  | _ => rfl

theorem Coherent.lines_of_readLine {p q : Progress} (h : p.Coherent)
    {o : Options} {line : List Char} (hq : p.readLine o line = .ok q) :
    q.lines = p.lines + 1 := by
  obtain ⟨st, -, -, rfl⟩ := h.readLine_eq_ok_iff.1 hq
  rw [lines_accept]
  rfl

theorem Coherent.of_readLine {p q : Progress} (h : p.Coherent) {o : Options}
    {line : List Char} (hq : p.readLine o line = .ok q) : q.Coherent := by
  obtain ⟨st, -, -, rfl⟩ := h.readLine_eq_ok_iff.1 hq
  exact h.advance.accept st

/-! ## Many lines -/

/-- **Reads lines one after the other**, none of them with a byte order
mark. -/
def readLines (o : Options) (p : Progress) (lines : List (List Char)) :
    Except ReadError Progress :=
  lines.foldlM (readLine o) p

@[simp] theorem readLines_nil (o : Options) (p : Progress) :
    p.readLines o [] = .ok p := rfl

theorem readLines_cons (o : Options) (p : Progress) (line : List Char)
    (lines : List (List Char)) :
    p.readLines o (line :: lines)
      = (p.readLine o line).bind fun q => q.readLines o lines := rfl

/-- **A reading can be cut anywhere.** -/
theorem readLines_append (o : Options) (p : Progress)
    (front back : List (List Char)) :
    p.readLines o (front ++ back)
      = (p.readLines o front).bind fun q => q.readLines o back := by
  unfold readLines
  rw [List.foldlM_append]
  rfl

@[simp] theorem readLines_singleton (o : Options) (p : Progress)
    (line : List Char) : p.readLines o [line] = p.readLine o line := by
  rw [readLines_cons]
  cases p.readLine o line <;> rfl

/-- **Blank lines end what was being defined**, and nothing else. -/
theorem Coherent.readLines_blank {p : Progress} (hp : p.Coherent)
    {o : Options} {blanks : List (List Char)}
    (hblank : ∀ line ∈ blanks, Text.words line = []) :
    p.readLines o blanks
      = .ok ⟨p.catalog, if blanks = [] then p.current else none,
          p.lines + blanks.length⟩ := by
  induction blanks generalizing p with
  | nil => rfl
  | cons line blanks ih =>
    obtain ⟨hline, hblanks⟩ := List.forall_mem_cons.1 hblank
    have hread : p.readLine o line = .ok p.advance.close :=
      hp.readLine_eq_ok_iff.2
        ⟨.blank, by simp only [Statement.ofLine, hline], rfl, rfl⟩
    rw [readLines_cons, hread]
    show p.advance.close.readLines o blanks = _
    rw [ih (hp.of_readLine hread) hblanks, if_neg (List.cons_ne_nil _ _),
      List.length_cons, Nat.add_comm blanks.length, ← Nat.add_assoc]
    show Except.ok (Progress.mk p.catalog (if blanks = [] then none else none)
      (p.lines + 1 + blanks.length)) = _
    rw [ite_self]

/-- What was read before a line can be read alone. -/
theorem readLines_append_eq_ok_iff {o : Options} {p q : Progress}
    {front back : List (List Char)} :
    p.readLines o (front ++ back) = .ok q
      ↔ ∃ r, p.readLines o front = .ok r ∧ r.readLines o back = .ok q := by
  rw [readLines_append, Except.bind_eq_ok_iff]

/-- **Induction along the lines that were read.** -/
theorem readLines_induction {o : Options} {p : Progress}
    {motive : List (List Char) → Progress → Prop}
    (nil : motive [] p)
    (line : ∀ lines q line r, p.readLines o lines = .ok q → motive lines q →
      q.readLine o line = .ok r → motive (lines ++ [line]) r)
    {lines : List (List Char)} :
    ∀ {q : Progress}, p.readLines o lines = .ok q → motive lines q := by
  induction lines using List.reverseRecOn with
  | nil =>
    intro q h
    obtain rfl := Except.ok.inj h
    exact nil
  | append_singleton lines last ih =>
    intro r h
    obtain ⟨q, hq, hr⟩ := readLines_append_eq_ok_iff.1 h
    rw [readLines_singleton] at hr
    exact line lines q last r hq (ih hq) hr

/-- A reading leaves a coherent progress and has counted its lines. -/
theorem Coherent.of_readLines {p q : Progress} (h : p.Coherent) {o : Options}
    {lines : List (List Char)} (hq : p.readLines o lines = .ok q) :
    q.Coherent ∧ q.lines = p.lines + lines.length := by
  refine readLines_induction
    (motive := fun lines q => q.Coherent ∧ q.lines = p.lines + lines.length)
    ⟨h, rfl⟩ ?_ hq
  intro lines q line r _ ih hr
  refine ⟨ih.1.of_readLine hr, ?_⟩
  rw [ih.1.lines_of_readLine hr, ih.2, List.length_append, Nat.add_assoc]
  rfl

/-- The same of a reading from the beginning. -/
theorem of_readLines_start {o : Options} {p : Progress}
    {lines : List (List Char)} (h : start.readLines o lines = .ok p) :
    p.Coherent ∧ p.lines = lines.length := by
  obtain ⟨hcoh, hcount⟩ := coherent_start.of_readLines h
  exact ⟨hcoh, hcount.trans (Nat.zero_add _)⟩

/-- **A reading fails at one line**, after it read all lines before. -/
theorem readLines_eq_error_iff {o : Options} {p : Progress}
    {lines : List (List Char)} {e : ReadError} :
    p.readLines o lines = .error e
      ↔ ∃ front line back q, lines = front ++ line :: back
        ∧ p.readLines o front = .ok q ∧ q.readLine o line = .error e := by
  constructor
  · intro h
    induction lines generalizing p with
    | nil => exact absurd h (by simp)
    | cons line lines ih =>
      rw [readLines_cons] at h
      rcases Except.bind_eq_error_iff.1 h with h | ⟨q, hq, h⟩
      · exact ⟨[], line, lines, p, rfl, rfl, h⟩
      · obtain ⟨front, bad, back, r, rfl, hr, hbad⟩ := ih h
        refine ⟨line :: front, bad, back, r, rfl, ?_, hbad⟩
        rw [readLines_cons, hq]
        exact hr
  · rintro ⟨front, line, back, q, rfl, hq, hline⟩
    rw [readLines_append, hq]
    show q.readLines o (line :: back) = .error e
    rw [readLines_cons, hline]
    rfl

end Progress

/-! ## The lines of a source -/

theorem withoutMark_mark_cons (line : List Char) :
    withoutMark (byteOrderMark :: line) = line :=
  if_pos rfl

theorem withoutMark_of_head?_ne {line : List Char}
    (h : line.head? ≠ some byteOrderMark) : withoutMark line = line :=
  if_neg h

/-- What stands behind another character remains when a byte order mark is
taken off. -/
theorem withoutMark_append_cons {c : Char} (hc : c ≠ byteOrderMark)
    (front back : List Char) :
    withoutMark (front ++ c :: back) = withoutMark front ++ c :: back := by
  cases front with
  | nil => exact if_neg fun h => hc (Option.some.inj h)
  | cons d front =>
    unfold withoutMark
    rw [List.cons_append, List.head?_cons, List.head?_cons]
    split <;> rfl

namespace Reading

/-- **The lines of a text**, the first one without a byte order mark. -/
def linesOf (text : List Char) : List (List Char) :=
  (Text.Lines.ofChars text).toList.modifyHead withoutMark

/-- Taking off a byte order mark takes away no line. -/
theorem length_linesOf (text : List Char) :
    (linesOf text).length = (Text.Lines.ofChars text).toList.length :=
  List.length_modifyHead

/-- A text without a byte order mark has the lines it is cut into. -/
theorem linesOf_of_head?_ne {text : List Char}
    (h : text.head? ≠ some byteOrderMark) :
    linesOf text = (Text.Lines.ofChars text).toList := by
  unfold linesOf
  cases hlines : (Text.Lines.ofChars text).toList with
  | nil => rfl
  | cons first rest =>
    have hfirst : first.head? ≠ some byteOrderMark := fun hhead =>
      h (Text.Lines.head?_of_toList_cut hlines hhead)
    rw [List.modifyHead_cons, withoutMark_of_head?_ne hfirst]

/-- The lines of a text whose first line was ended. -/
theorem linesOf_append_cons {front : List Char} (h : '\n' ∉ front)
    (back : List Char) :
    linesOf (front ++ '\n' :: back)
      = withoutMark (Text.Lines.withoutReturn '\r' front)
        :: (Text.Lines.ofChars back).toList := by
  unfold linesOf Text.Lines.ofChars
  rw [Text.Lines.toList_cut_append_cons h]
  rfl

/-- A text without a line feed is one line, or none. -/
theorem linesOf_of_not_mem {text : List Char} (h : '\n' ∉ text) :
    linesOf text = if text.isEmpty then [] else [withoutMark text] := by
  unfold linesOf Text.Lines.ofChars
  rw [Text.Lines.toList_cut_of_not_mem h]
  split <;> rfl

/-- **A line as it is looked at**, where a text stands before it or where it is
the first. -/
def lineBehind (front line : List Char) : List Char :=
  if front = [] then withoutMark line else line

/-- **Lines as they are looked at**, where a text stands before them or where
they are the first. -/
def linesBehind (front text : List Char) : List (List Char) :=
  if front = [] then linesOf text else (Text.Lines.ofChars text).toList

/-- The lines behind a text, of which the first was ended. -/
theorem linesBehind_append_cons (front : List Char) {line : List Char}
    (h : '\n' ∉ line) (back : List Char) :
    linesBehind front (line ++ '\n' :: back)
      = lineBehind front (Text.Lines.withoutReturn '\r' line)
        :: (Text.Lines.ofChars back).toList := by
  unfold linesBehind lineBehind
  split
  · exact linesOf_append_cons h back
  · exact Text.Lines.toList_cut_append_cons h back

/-- What is behind a text is one line if it has no line feed. -/
theorem linesBehind_of_not_mem (front : List Char) {line : List Char}
    (h : '\n' ∉ line) (hne : line ≠ []) :
    linesBehind front line = [lineBehind front line] := by
  have hfalse : line.isEmpty = false := List.isEmpty_eq_false_iff.2 hne
  unfold linesBehind lineBehind
  split
  · rw [linesOf_of_not_mem h, hfalse]
    rfl
  · show (Text.Lines.cut '\n' '\r' line).toList = _
    rw [Text.Lines.toList_cut_of_not_mem h, hfalse]
    rfl

/-- **The lines of an ended text are followed by those behind it.** -/
theorem linesOf_append_ended {front : List Char}
    (hended : front = [] ∨ front.getLast? = some '\n') (back : List Char) :
    linesOf (front ++ back) = linesOf front ++ linesBehind front back := by
  unfold linesBehind
  split
  · next hempty =>
    rw [hempty]
    rfl
  · next hempty =>
    have happend : (Text.Lines.ofChars (front ++ back)).toList
        = (Text.Lines.ofChars front).toList
          ++ (Text.Lines.ofChars back).toList :=
      Text.Lines.toList_cut_append front back hended
    have hne : (Text.Lines.ofChars front).toList ≠ [] :=
      Text.Lines.toList_cut_ne_nil hempty
    obtain ⟨first, rest, hfront⟩ := List.exists_cons_of_ne_nil hne
    unfold linesOf
    rw [happend, hfront]
    rfl

/-- **Entries that are lines are read one after the other**, and then the
remaining entries are. -/
theorem outcome_readOn (o : Options) (rest : List Entry)
    (lines : List (List Char)) {p : Progress} (h : p.Coherent) :
    (readOn o p (lines.map .ok ++ rest)).outcome
      = (p.readLines o
          (if p.lines = 0 then lines.modifyHead withoutMark else lines)).bind
        fun q => (readOn o q rest).outcome := by
  induction lines generalizing p with
  | nil =>
    rw [List.modifyHead_nil, ite_self]
    rfl
  | cons line lines ih =>
    have hhead : (if p.lines = 0 then (line :: lines).modifyHead withoutMark
          else line :: lines) = p.seen line :: lines := by
      unfold Progress.seen
      split <;> rfl
    rw [hhead, Progress.readLines_cons, ← Progress.outcome_step, List.map_cons,
      List.cons_append]
    cases hs : (p.step o line).outcome with
    | error e =>
      rw [readOn_of_error hs]
      rfl
    | ok q =>
      have hq : p.readLine o (p.seen line) = .ok q :=
        (Progress.outcome_step o p line).symm.trans hs
      rw [readOn_of_ok hs]
      have hne : q.lines ≠ 0 := by
        rw [h.lines_of_readLine hq]
        exact Nat.succ_ne_zero _
      have hrest := ih (h.of_readLine hq)
      rw [if_neg hne] at hrest
      exact hrest

/-- What is read of a text before the messages are selected. -/
theorem outcome_ofText (o : Options) (text : List Char) :
    (ofText o text).outcome
      = (Progress.start.readLines o (linesOf text)).map
        fun p => p.catalog.restrict o.keeps := by
  have h := outcome_readOn o [] (Text.Lines.ofChars text).toList
    Progress.coherent_start
  rw [List.append_nil] at h
  show (readOn o .start _).outcome = _
  rw [h]
  show Except.bind (Progress.start.readLines o (linesOf text)) _ = _
  cases Progress.start.readLines o (linesOf text) <;> rfl

/-- **A text is read if all its lines are.** -/
theorem outcome_ofText_eq_ok_iff {o : Options} {text : List Char}
    {c : Catalog} :
    (ofText o text).outcome = .ok c
      ↔ ∃ p, Progress.start.readLines o (linesOf text) = .ok p
        ∧ p.catalog.restrict o.keeps = c := by
  rw [outcome_ofText, Except.map_eq_ok_iff]

/-- **A text is refused if one of its lines is.** -/
theorem outcome_ofText_eq_error_iff {o : Options} {text : List Char}
    {e : ReadError} :
    (ofText o text).outcome = .error e
      ↔ Progress.start.readLines o (linesOf text) = .error e := by
  rw [outcome_ofText, Except.map_eq_error_iff]

/-- **An error names the line behind the lines that were read.** -/
theorem exists_of_readLines_eq_error {o : Options} {lines : List (List Char)}
    {e : ReadError} (h : Progress.start.readLines o lines = .error e) :
    ∃ front line back p fault, lines = front ++ line :: back
      ∧ Progress.start.readLines o front = .ok p
      ∧ p.readLine o line = .error e
      ∧ e = .atLine (front.length + 1) fault := by
  obtain ⟨front, line, back, p, hlines, hp, hline⟩ :=
    Progress.readLines_eq_error_iff.1 h
  obtain ⟨hcoh, hcount⟩ := Progress.of_readLines_start hp
  obtain ⟨fault, he, -⟩ := hcoh.readLine_eq_error_iff.1 hline
  refine ⟨front, line, back, p, fault, hlines, hp, hline, ?_⟩
  rw [he, hcount]

/-- The lines up to the one behind the front. -/
theorem take_append_cons (front : List (List Char)) (line : List Char)
    (back : List (List Char)) :
    (front ++ line :: back).take (front.length + 1) = front ++ [line] := by
  rw [List.take_length_add_append]
  rfl

/-- **The lines before the line of an error are read.** If there is no error,
this is any number of lines. -/
theorem exists_readLines_take {o : Options} {lines : List (List Char)} {k : Nat}
    (h : ∀ e n, Progress.start.readLines o lines = .error e →
      e.line? = some n → k < n) :
    ∃ p, Progress.start.readLines o (lines.take k) = .ok p := by
  cases hread : Progress.start.readLines o lines with
  | ok p =>
    rw [← List.take_append_drop k lines] at hread
    obtain ⟨q, hq, -⟩ := Progress.readLines_append_eq_ok_iff.1 hread
    exact ⟨q, hq⟩
  | error e =>
    obtain ⟨front, line, back, p, fault, rfl, hp, -, rfl⟩ :=
      exists_of_readLines_eq_error hread
    have hle : k ≤ front.length := Nat.lt_succ_iff.1 (h _ _ hread rfl)
    rw [List.take_append_of_le_length hle]
    rw [← List.take_append_drop k front] at hp
    obtain ⟨q, hq, -⟩ := Progress.readLines_append_eq_ok_iff.1 hp
    exact ⟨q, hq⟩

end Reading

end CanCatalog
