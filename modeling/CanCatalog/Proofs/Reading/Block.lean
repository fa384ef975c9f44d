import CanCatalog.Proofs.Statement.Kind
import Mathlib.Data.List.Induction

/-!
# Blocks of lines

What a text says does not depend on how it is read. It is a sequence of lines;
a line that begins a message has a *block*, which is what follows it up to the
next message or the next blank line; and a signal belongs to the message in
whose block it stands. Of several messages with one identifier the last one
counts, and within its block the last signal of a name. All of this is said
here of the lines alone, by their positions (`InBlock`, `LastMessage`,
`LastSignal`).

A reading sees the lines one after the other. So for each of these notions
there is an equation that tells how it changes with one more line. For blocks
this needs a name for the block that has not ended yet, to which the next line
will belong: it is `Unended`.
-/

namespace CanCatalog.Reading

open Statement (Begins States WellFormed messageKeyword signalKeyword)

variable {lines : List (List Char)} {line : List Char}

/-! ## Positions -/

/-- **The line at a position has a property.** Positions are counted from
zero. -/
def LineAt (lines : List (List Char)) (i : Nat) (P : List Char → Prop) : Prop :=
  ∃ line, lines[i]? = some line ∧ P line

theorem LineAt.lt {i : Nat} {P : List Char → Prop} (h : LineAt lines i P) :
    i < lines.length := by
  obtain ⟨line, hline, -⟩ := h
  exact (List.getElem?_eq_some_iff.1 hline).1

theorem LineAt.imp {i : Nat} {P Q : List Char → Prop} (h : LineAt lines i P)
    (hPQ : ∀ line, P line → Q line) : LineAt lines i Q := by
  obtain ⟨line, hline, hP⟩ := h
  exact ⟨line, hline, hPQ line hP⟩

/-- A line states one thing. -/
theorem LineAt.states_unique {i : Nat} {st st' : Statement}
    (h : LineAt lines i (States st)) (h' : LineAt lines i (States st')) :
    st = st' := by
  obtain ⟨line, hline, hst⟩ := h
  obtain ⟨line', hline', hst'⟩ := h'
  obtain rfl := Option.some.inj (hline.symm.trans hline')
  exact hst.unique hst'

/-- What stands at a position does not depend on what follows. -/
theorem lineAt_append_left {front back : List (List Char)} {i : Nat}
    (hi : i < front.length) {P : List Char → Prop} :
    LineAt (front ++ back) i P ↔ LineAt front i P := by
  unfold LineAt
  rw [List.getElem?_append_left hi]

/-- The line behind the others is the new one. -/
theorem lineAt_append_cons {back : List (List Char)} {P : List Char → Prop} :
    LineAt (lines ++ line :: back) lines.length P ↔ P line := by
  unfold LineAt
  rw [List.getElem?_append_right (Nat.le_refl _), Nat.sub_self,
    List.getElem?_cons_zero]
  constructor
  · rintro ⟨_, heq, h⟩
    obtain rfl := Option.some.inj heq
    exact h
  · exact fun h => ⟨line, rfl, h⟩

/-- Nothing stands behind the new line. -/
theorem not_lineAt_of_length_lt {i : Nat} (h : lines.length < i)
    (P : List Char → Prop) : ¬ LineAt (lines ++ [line]) i P := by
  intro hline
  have hlt := hline.lt
  rw [List.length_append, List.length_singleton] at hlt
  exact absurd h (Nat.not_lt.2 (Nat.lt_succ_iff.1 hlt))

/-- **A position with one more line** is one of the old ones or the last. -/
theorem lineAt_append_singleton {i : Nat} {P : List Char → Prop} :
    LineAt (lines ++ [line]) i P
      ↔ LineAt lines i P ∨ i = lines.length ∧ P line := by
  rcases Nat.lt_trichotomy i lines.length with hi | rfl | hi
  · rw [lineAt_append_left hi]
    exact ⟨.inl, fun h => h.resolve_right fun h => absurd h.1 (Nat.ne_of_lt hi)⟩
  · rw [lineAt_append_cons]
    refine ⟨fun h => .inr ⟨rfl, h⟩, fun h => ?_⟩
    rcases h with h | h
    · exact absurd h.lt (Nat.lt_irrefl _)
    · exact h.2
  · refine iff_of_false (not_lineAt_of_length_lt hi P) ?_
    rintro (h | ⟨rfl, -⟩)
    · exact Nat.lt_asymm hi h.lt
    · exact Nat.lt_irrefl _ hi

/-- There are lines before a position, a line there, and lines behind it. -/
theorem exists_append_cons_of_lt {k : Nat} (h : k < lines.length) :
    ∃ front line back, lines = front ++ line :: back ∧ front.length = k := by
  refine ⟨lines.take k, lines[k], lines.drop (k + 1), ?_, ?_⟩
  · rw [List.getElem_cons_drop, List.take_append_drop]
  · exact List.length_take_of_le (Nat.le_of_lt h)

/-! ## Blocks -/

/-- **A line that ends a block**: it begins the next message, or is blank. -/
def EndsBlock (line : List Char) : Prop :=
  Begins messageKeyword line ∨ Text.words line = []

/-- **The line at `i` is in the block of the message at `j`.** -/
def InBlock (lines : List (List Char)) (j i : Nat) : Prop :=
  LineAt lines j (Begins messageKeyword) ∧ j < i ∧ i < lines.length
    ∧ ∀ k, j < k → k ≤ i → ¬ LineAt lines k EndsBlock

/-- **The block of the message at `j` has not ended.** -/
def Unended (lines : List (List Char)) (j : Nat) : Prop :=
  LineAt lines j (Begins messageKeyword)
    ∧ ∀ k, j < k → ¬ LineAt lines k EndsBlock

/-- A line that defines a signal ends no block. -/
theorem not_endsBlock_of_begins (h : Begins signalKeyword line) :
    ¬ EndsBlock line := by
  rintro (hm | hblank)
  · exact Statement.messageKeyword_ne_signalKeyword (hm.unique h)
  · exact h.words_ne_nil hblank

/-- **At most one block has not ended.** -/
theorem Unended.unique {j j' : Nat} (h : Unended lines j)
    (h' : Unended lines j') : j = j' := by
  rcases Nat.lt_trichotomy j j' with hlt | heq | hlt
  · exact absurd (h'.1.imp fun _ => .inl) (h.2 j' hlt)
  · exact heq
  · exact absurd (h.1.imp fun _ => .inl) (h'.2 j hlt)

/-- **A block goes on** unless the new line ends it, and a new one begins if
the new line is a message. -/
theorem unended_append_singleton {j : Nat} :
    Unended (lines ++ [line]) j
      ↔ Unended lines j ∧ ¬ EndsBlock line
        ∨ j = lines.length ∧ Begins messageKeyword line := by
  constructor
  · rintro ⟨hj, hnone⟩
    rcases lineAt_append_singleton.1 hj with hj | hj
    · refine .inl ⟨⟨hj, fun k hk hline => ?_⟩, fun hends => ?_⟩
      · exact hnone k hk (lineAt_append_singleton.2 (.inl hline))
      · exact hnone _ hj.lt (lineAt_append_cons.2 hends)
    · exact .inr hj
  · rintro (⟨⟨hj, hnone⟩, hends⟩ | ⟨rfl, hbegins⟩)
    · refine ⟨lineAt_append_singleton.2 (.inl hj), fun k hk hline => ?_⟩
      rcases lineAt_append_singleton.1 hline with hline | ⟨-, hline⟩
      · exact hnone k hk hline
      · exact hends hline
    · exact ⟨lineAt_append_cons.2 hbegins,
        fun k hk => not_lineAt_of_length_lt hk EndsBlock⟩

/-- Whether a line is in a block does not depend on what follows it. -/
theorem inBlock_append_left {front back : List (List Char)} {j i : Nat}
    (hi : i < front.length) :
    InBlock (front ++ back) j i ↔ InBlock front j i := by
  have hlength : i < (front ++ back).length := by
    rw [List.length_append]
    omega
  unfold InBlock
  constructor
  · rintro ⟨hj, hji, -, hnone⟩
    refine ⟨(lineAt_append_left (by omega)).1 hj, hji, hi, ?_⟩
    intro k hk hki hline
    exact hnone k hk hki ((lineAt_append_left hline.lt).2 hline)
  · rintro ⟨hj, hji, -, hnone⟩
    refine ⟨(lineAt_append_left (by omega)).2 hj, hji, hlength, ?_⟩
    intro k hk hki hline
    exact hnone k hk hki ((lineAt_append_left (by omega)).1 hline)

/-- **A new line is in the block that has not ended**, unless it ends it. -/
theorem inBlock_append_cons {back : List (List Char)} {j : Nat} :
    InBlock (lines ++ line :: back) j lines.length
      ↔ Unended lines j ∧ ¬ EndsBlock line := by
  constructor
  · rintro ⟨hj, hlt, -, hnone⟩
    refine ⟨⟨(lineAt_append_left hlt).1 hj, ?_⟩, fun hends => ?_⟩
    · intro k hk hline
      exact hnone k hk (Nat.le_of_lt hline.lt)
        ((lineAt_append_left hline.lt).2 hline)
    · exact hnone _ hlt (Nat.le_refl _) (lineAt_append_cons.2 hends)
  · rintro ⟨⟨hj, hnone⟩, hends⟩
    refine ⟨(lineAt_append_left hj.lt).2 hj, hj.lt, ?_, ?_⟩
    · rw [List.length_append, List.length_cons]
      omega
    · intro k hk hle hline
      rcases Nat.lt_or_eq_of_le hle with hlt | rfl
      · exact hnone k hk ((lineAt_append_left hlt).1 hline)
      · exact hends (lineAt_append_cons.1 hline)

/-- **What is in a block with one more line.** -/
theorem inBlock_append_singleton {j i : Nat} :
    InBlock (lines ++ [line]) j i
      ↔ InBlock lines j i
        ∨ i = lines.length ∧ Unended lines j ∧ ¬ EndsBlock line := by
  rcases Nat.lt_trichotomy i lines.length with hi | rfl | hi
  · rw [inBlock_append_left hi]
    exact ⟨.inl, fun h => h.resolve_right fun h => absurd h.1 (Nat.ne_of_lt hi)⟩
  · rw [inBlock_append_cons]
    refine ⟨fun h => .inr ⟨rfl, h⟩, fun h => ?_⟩
    rcases h with h | h
    · exact absurd h.2.2.1 (Nat.lt_irrefl _)
    · exact h.2
  · refine iff_of_false ?_ ?_
    · rintro ⟨-, -, hlt, -⟩
      rw [List.length_append, List.length_singleton] at hlt
      exact absurd hi (Nat.not_lt.2 (Nat.lt_succ_iff.1 hlt))
    · rintro (h | ⟨rfl, -⟩)
      · exact Nat.lt_asymm hi h.2.2.1
      · exact Nat.lt_irrefl _ hi

/-! ## What counts -/

/-- **The last message of its identifier** is defined at `j`. -/
def LastMessage (lines : List (List Char)) (j : Nat) (m : Message) : Prop :=
  LineAt lines j (States (.message m))
    ∧ ∀ k m', j < k → LineAt lines k (States (.message m')) → m'.id ≠ m.id

/-- **The last signal of its name** in the block of the message at `j` is
defined at `i`. -/
def LastSignal (lines : List (List Char)) (j i : Nat) (s : Signal) : Prop :=
  InBlock lines j i ∧ LineAt lines i (States (.signal s))
    ∧ ∀ k s', i < k → InBlock lines j k →
        LineAt lines k (States (.signal s')) → s'.name ≠ s.name

/-- There is only one last message of an identifier. -/
theorem LastMessage.unique {j j' : Nat} {m m' : Message}
    (h : LastMessage lines j m) (h' : LastMessage lines j' m')
    (hid : m.id = m'.id) : j = j' := by
  rcases Nat.lt_trichotomy j j' with hlt | heq | hlt
  · exact absurd hid.symm (h.2 j' m' hlt h'.1)
  · exact heq
  · exact absurd hid (h'.2 j m hlt h.1)

/-- A message whose block has not ended is the last of all messages. -/
theorem Unended.lastMessage {j : Nat} (h : Unended lines j) {m : Message}
    (hm : LineAt lines j (States (.message m))) : LastMessage lines j m :=
  ⟨hm, fun k _ hk hline =>
    absurd (hline.imp fun _ hst => .inl hst.kind) (h.2 k hk)⟩

/-- **A new message is the last of its identifier**, and the others remain
so. -/
theorem lastMessage_append_singleton {j : Nat} {m : Message} :
    LastMessage (lines ++ [line]) j m
      ↔ LastMessage lines j m ∧ (∀ m', States (.message m') line → m'.id ≠ m.id)
        ∨ j = lines.length ∧ States (.message m) line := by
  constructor
  · rintro ⟨hj, hlast⟩
    rcases lineAt_append_singleton.1 hj with hj | hj
    · refine .inl ⟨⟨hj, fun k m' hk hline => ?_⟩, fun m' hm' => ?_⟩
      · exact hlast k m' hk (lineAt_append_singleton.2 (.inl hline))
      · exact hlast _ m' hj.lt (lineAt_append_cons.2 hm')
    · exact .inr hj
  · rintro (⟨⟨hj, hlast⟩, hother⟩ | ⟨rfl, hm⟩)
    · refine ⟨lineAt_append_singleton.2 (.inl hj), fun k m' hk hline => ?_⟩
      rcases lineAt_append_singleton.1 hline with hline | ⟨-, hline⟩
      · exact hlast k m' hk hline
      · exact hother m' hline
    · exact ⟨lineAt_append_cons.2 hm, fun k m' hk hline =>
        absurd hline (not_lineAt_of_length_lt hk _)⟩

/-- **A new signal is the last of its name** in the block that has not ended,
and the others remain so. -/
theorem lastSignal_append_singleton {j i : Nat} {s : Signal} :
    LastSignal (lines ++ [line]) j i s
      ↔ LastSignal lines j i s
          ∧ (Unended lines j →
            ∀ s', States (.signal s') line → s'.name ≠ s.name)
        ∨ i = lines.length ∧ Unended lines j ∧ States (.signal s) line := by
  constructor
  · rintro ⟨hblock, hi, hlast⟩
    rcases lineAt_append_singleton.1 hi with hi | ⟨rfl, hs⟩
    · have hold := (inBlock_append_left hi.lt).1 hblock
      refine .inl ⟨⟨hold, hi, ?_⟩, fun hopen s' hs' => ?_⟩
      · intro k s' hk hin hline
        exact hlast k s' hk (inBlock_append_singleton.2 (.inl hin))
          (lineAt_append_singleton.2 (.inl hline))
      · exact hlast _ s' hi.lt
          (inBlock_append_cons.2 ⟨hopen, not_endsBlock_of_begins hs'.kind⟩)
          (lineAt_append_cons.2 hs')
    · exact .inr ⟨rfl, (inBlock_append_cons.1 hblock).1, hs⟩
  · rintro (⟨⟨hblock, hi, hlast⟩, hother⟩ | ⟨rfl, hopen, hs⟩)
    · refine ⟨inBlock_append_singleton.2 (.inl hblock),
        lineAt_append_singleton.2 (.inl hi), fun k s' hk hin hline => ?_⟩
      rcases lineAt_append_singleton.1 hline with hline | ⟨rfl, hs'⟩
      · exact hlast k s' hk ((inBlock_append_left hline.lt).1 hin) hline
      · exact hother (inBlock_append_cons.1 hin).1 s' hs'
    · exact ⟨inBlock_append_cons.2 ⟨hopen, not_endsBlock_of_begins hs.kind⟩,
        lineAt_append_cons.2 hs, fun k s' hk _ hline =>
          absurd hline (not_lineAt_of_length_lt hk _)⟩

/-- **A message that is defined somewhere has a last definition.** -/
theorem exists_lastMessage {j : Nat} {m : Message} :
    LineAt lines j (States (.message m)) →
      ∃ j' m', LastMessage lines j' m' ∧ m'.id = m.id := by
  induction lines using List.reverseRecOn with
  | nil => exact fun h => absurd h.lt (Nat.not_lt_zero j)
  | append_singleton lines line ih =>
    intro h
    by_cases hnew : ∃ m', States (.message m') line ∧ m'.id = m.id
    · obtain ⟨m', hm', hid⟩ := hnew
      exact ⟨_, m', lastMessage_append_singleton.2 (.inr ⟨rfl, hm'⟩), hid⟩
    · rcases lineAt_append_singleton.1 h with h | ⟨-, h⟩
      · obtain ⟨j', m', hlast, hid⟩ := ih h
        refine ⟨j', m', lastMessage_append_singleton.2 (.inl ⟨hlast, ?_⟩), hid⟩
        exact fun m'' hm'' heq => hnew ⟨m'', hm'', heq.trans hid⟩
      · exact absurd ⟨m, h, rfl⟩ hnew

/-- **A signal that is defined in a block has a last definition** there. -/
theorem exists_lastSignal {j i : Nat} {s : Signal} :
    InBlock lines j i → LineAt lines i (States (.signal s)) →
      ∃ i' s', LastSignal lines j i' s' ∧ s'.name = s.name := by
  induction lines using List.reverseRecOn with
  | nil => exact fun _ h => absurd h.lt (Nat.not_lt_zero i)
  | append_singleton lines line ih =>
    intro hblock h
    by_cases hnew : Unended lines j
        ∧ ∃ s', States (.signal s') line ∧ s'.name = s.name
    · obtain ⟨hopen, s', hs', hname⟩ := hnew
      exact ⟨_, s',
        lastSignal_append_singleton.2 (.inr ⟨rfl, hopen, hs'⟩), hname⟩
    · rcases lineAt_append_singleton.1 h with h | ⟨rfl, hs⟩
      · obtain ⟨i', s', hlast, hname⟩ :=
          ih ((inBlock_append_left h.lt).1 hblock) h
        refine ⟨i', s', lastSignal_append_singleton.2 (.inl ⟨hlast, ?_⟩), hname⟩
        exact fun hopen s'' hs'' heq =>
          hnew ⟨hopen, s'', hs'', heq.trans hname⟩
      · exact absurd ⟨(inBlock_append_cons.1 hblock).1, s, hs, rfl⟩ hnew

end CanCatalog.Reading
