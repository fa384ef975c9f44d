import CanCatalog.Proofs.Reading.Block
import CanCatalog.Proofs.Reading.Lines

/-!
# What a catalogue says of its text

A reading makes one pass and overwrites. An identifier that comes again takes
the place of the message that had it, a name that comes again takes the place
of the signal, a blank line leaves signals nowhere to go. The meaning of a text
mentions none of this: it is in the positions of the lines, in blocks and in
what comes last.

That the two are the same is an invariant of the reading (`Describes`): after
any number of lines the progress is what these lines mean. Its heart is what a
stored message has to do with the line that defines it (`Holds`). A line
changes that for one message at the most, the one whose block has not ended,
and this is the last message of its identifier; so a signal is never put into
a message that came earlier.
-/

namespace CanCatalog.Reading

open Statement (Begins States WellFormed messageKeyword signalKeyword)

variable {lines : List (List Char)} {line : List Char}

/-! ## One more line in the text -/

/-- **The identifier of the message whose block has not ended.** -/
def Defining (lines : List (List Char)) (id : UInt32) : Prop :=
  ∃ j m, Unended lines j ∧ LineAt lines j (States (.message m)) ∧ m.id = id

/-- The message whose block has not ended is the old one, or the new line. -/
theorem defining_append_singleton {id : UInt32} :
    Defining (lines ++ [line]) id
      ↔ Defining lines id ∧ ¬ EndsBlock line
        ∨ ∃ m, States (.message m) line ∧ m.id = id := by
  constructor
  · rintro ⟨j, m, hopen, hm, hid⟩
    rcases unended_append_singleton.1 hopen with ⟨hold, hends⟩ | ⟨rfl, -⟩
    · exact .inl ⟨⟨j, m, hold, (lineAt_append_left hold.1.lt).1 hm, hid⟩, hends⟩
    · exact .inr ⟨m, lineAt_append_cons.1 hm, hid⟩
  · rintro (⟨⟨j, m, hopen, hm, hid⟩, hends⟩ | ⟨m, hm, hid⟩)
    · exact ⟨j, m, unended_append_singleton.2 (.inl ⟨hopen, hends⟩),
        (lineAt_append_left hm.lt).2 hm, hid⟩
    · exact ⟨_, m, unended_append_singleton.2 (.inr ⟨rfl, hm.kind⟩),
        lineAt_append_cons.2 hm, hid⟩

/-- A line that is no message leaves the last messages as they were. -/
theorem lastMessage_append_of_not_message
    (h : ∀ m, ¬ States (.message m) line) {j : Nat} {m : Message} :
    LastMessage (lines ++ [line]) j m ↔ LastMessage lines j m := by
  rw [lastMessage_append_singleton]
  constructor
  · rintro (⟨hlast, -⟩ | ⟨-, hm⟩)
    · exact hlast
    · exact absurd hm (h m)
  · exact fun hlast => .inl ⟨hlast, fun m' hm' => absurd hm' (h m')⟩

/-! ## Stored messages -/

/-- **A stored message holds what the text says** of the one that is defined at
`j` as `m`: the words of that line, and the last signal of every name in its
block. -/
structure Holds (lines : List (List Char)) (j : Nat) (m M : Message) :
    Prop where
  /-- It carries the identifier. -/
  id_eq : M.id = m.id
  /-- It has the name. -/
  genus_eq : M.genus = m.genus
  /-- It has the number of bytes. -/
  frameBytes_eq : M.frameBytes = m.frameBytes
  /-- It has the family. -/
  family_eq : M.family = m.family
  /-- It has the signals. -/
  signal?_eq_some_iff : ∀ name s, M.signal? name = some s
    ↔ s.name = name ∧ ∃ i, LastSignal lines j i s

/-- A line that adds no signal to a message leaves it what it was. -/
theorem Holds.append {j : Nat} {m M : Message} (h : Holds lines j m M)
    (hother : Unended lines j → ∀ s, ¬ States (.signal s) line) :
    Holds (lines ++ [line]) j m M := by
  refine { h with signal?_eq_some_iff := fun name s => ?_ }
  rw [h.signal?_eq_some_iff]
  refine and_congr_right fun _ => exists_congr fun i => ?_
  rw [lastSignal_append_singleton]
  constructor
  · exact fun hlast =>
      .inl ⟨hlast, fun hopen s' hs' => absurd hs' (hother hopen s')⟩
  · rintro (⟨hlast, -⟩ | ⟨-, hopen, hs⟩)
    · exact hlast
    · exact absurd hs (hother hopen s)

/-- **A signal goes into the message whose block has not ended**, in place of
the one that had its name. -/
theorem Holds.put {j : Nat} {m M : Message} (h : Holds lines j m M)
    (hopen : Unended lines j) {s : Signal} (hs : States (.signal s) line) :
    Holds (lines ++ [line]) j m (M.put s.name s) := by
  refine ⟨h.id_eq, h.genus_eq, h.frameBytes_eq, h.family_eq, fun name s' => ?_⟩
  have hstates : ∀ s'', States (.signal s'') line → s'' = s := fun s'' hs'' =>
    Statement.signal.inj (hs''.unique hs)
  have hlast : ∀ i, LastSignal (lines ++ [line]) j i s'
      ↔ LastSignal lines j i s' ∧ s.name ≠ s'.name
        ∨ i = lines.length ∧ s' = s := by
    intro i
    rw [lastSignal_append_singleton]
    refine or_congr (and_congr_right fun _ => ?_) ?_
    · refine ⟨fun hne => hne hopen s hs, ?_⟩
      rintro hne - s'' hs''
      rw [hstates s'' hs'']
      exact hne
    · refine and_congr_right fun _ => ⟨fun hs' => hstates s' hs'.2, ?_⟩
      rintro rfl
      exact ⟨hopen, hs⟩
  rw [Message.signal?_put]
  by_cases hname : s.name = name
  · rw [if_pos hname]
    constructor
    · intro heq
      obtain rfl := Option.some.inj heq
      exact ⟨hname, lines.length, (hlast _).2 (.inr ⟨rfl, rfl⟩)⟩
    · rintro ⟨hname', i, hi⟩
      rcases (hlast i).1 hi with ⟨-, hne⟩ | ⟨-, rfl⟩
      · exact absurd (hname.trans hname'.symm) hne
      · rfl
  · rw [if_neg hname, h.signal?_eq_some_iff]
    refine and_congr_right fun hname' => exists_congr fun i => ?_
    rw [hlast]
    constructor
    · exact fun hi => .inl ⟨hi, fun heq => hname (heq.trans hname')⟩
    · rintro (⟨hi, -⟩ | ⟨-, rfl⟩)
      · exact hi
      · exact absurd hname' hname

/-- **A message begins without signals.** -/
theorem holds_message {m : Message} (hm : States (.message m) line) :
    Holds (lines ++ [line]) lines.length m m := by
  refine ⟨rfl, rfl, rfl, rfl, fun name s => ?_⟩
  rw [hm.signal?_eq_none]
  constructor
  · exact fun h => absurd h (by simp)
  · rintro ⟨-, i, ⟨-, hlt, hle, -⟩, -⟩
    rw [List.length_append, List.length_singleton] at hle
    omega

/-! ## The invariant -/

/-- **A progress is what its lines mean.** -/
structure Describes (lines : List (List Char)) (p : Progress) : Prop where
  /-- All lines are well-formed. -/
  wellFormed : ∀ line ∈ lines, WellFormed line
  /-- All signals are in the block of a message. -/
  enclosed : ∀ i, LineAt lines i (Begins signalKeyword) →
    ∃ j, InBlock lines j i
  /-- The message that is being defined is the one whose block has not
  ended. -/
  current_iff : ∀ id, p.current = some id ↔ Defining lines id
  /-- What is stored was defined. -/
  defined : ∀ id M, p.catalog.get? id = some M →
    ∃ j m, LastMessage lines j m ∧ m.id = id
  /-- The last message of every identifier is stored. -/
  stored : ∀ j m, LastMessage lines j m →
    ∃ M, p.catalog.get? m.id = some M ∧ Holds lines j m M

theorem describes_start : Describes [] .start where
  wellFormed line h := absurd h List.not_mem_nil
  enclosed i h := absurd h.lt (Nat.not_lt_zero i)
  current_iff id := by
    constructor
    · exact fun h => absurd h (by simp [Progress.start])
    · rintro ⟨j, m, hopen, -⟩
      exact absurd hopen.1.lt (Nat.not_lt_zero j)
  defined id M h := absurd h (by simp [Progress.start])
  stored j m h := absurd h.1.lt (Nat.not_lt_zero j)

/-- A message is being defined if there is a block that has not ended. -/
theorem Describes.current_isSome_iff {p : Progress} (h : Describes lines p) :
    p.current.isSome = true ↔ ∃ j, Unended lines j := by
  rw [Option.isSome_iff_exists]
  constructor
  · rintro ⟨id, hid⟩
    obtain ⟨j, m, hopen, -⟩ := (h.current_iff id).1 hid
    exact ⟨j, hopen⟩
  · rintro ⟨j, hopen⟩
    obtain ⟨line, hline, hbegins⟩ := hopen.1
    obtain ⟨m, hm⟩ :=
      (h.wellFormed line (List.mem_of_getElem? hline)).message hbegins
    exact ⟨m.id, (h.current_iff m.id).2 ⟨j, m, hopen, ⟨line, hline, hm⟩, rfl⟩⟩

/-- A line that is read in its place keeps all lines well-formed. -/
theorem Describes.wellFormed_append {p : Progress} (h : Describes lines p)
    {st : Statement} (hst : States st line) :
    ∀ l ∈ lines ++ [line], WellFormed l := by
  intro l hl
  rcases List.mem_append.1 hl with hl | hl
  · exact h.wellFormed l hl
  · rw [List.mem_singleton.1 hl]
    exact ⟨st, hst⟩

/-- A line that is read in its place keeps all signals in blocks. -/
theorem Describes.enclosed_append {p : Progress} (h : Describes lines p)
    (hplace : Begins signalKeyword line → p.current.isSome = true) (i : Nat)
    (hi : LineAt (lines ++ [line]) i (Begins signalKeyword)) :
    ∃ j, InBlock (lines ++ [line]) j i := by
  rcases lineAt_append_singleton.1 hi with hi | ⟨rfl, hbegins⟩
  · obtain ⟨j, hj⟩ := h.enclosed i hi
    exact ⟨j, inBlock_append_singleton.2 (.inl hj)⟩
  · obtain ⟨j, hopen⟩ := h.current_isSome_iff.1 (hplace hbegins)
    exact ⟨j, inBlock_append_cons.2 ⟨hopen, not_endsBlock_of_begins hbegins⟩⟩

/-- A line that defines nothing leaves the catalogue what its lines mean. -/
theorem Describes.stored_append {p : Progress} (h : Describes lines p)
    (hm : ∀ m, ¬ States (.message m) line)
    (hs : ∀ s, ¬ States (.signal s) line) (j : Nat) (m : Message)
    (hlast : LastMessage (lines ++ [line]) j m) :
    ∃ M, p.catalog.get? m.id = some M ∧ Holds (lines ++ [line]) j m M := by
  obtain ⟨M, hM, hholds⟩ :=
    h.stored j m ((lastMessage_append_of_not_message hm).1 hlast)
  exact ⟨M, hM, hholds.append fun _ => hs⟩

/-- A line that is no message leaves all that is stored defined. -/
theorem Describes.defined_append {p : Progress} (h : Describes lines p)
    (hm : ∀ m, ¬ States (.message m) line) (id : UInt32) (M : Message)
    (hM : p.catalog.get? id = some M) :
    ∃ j m, LastMessage (lines ++ [line]) j m ∧ m.id = id := by
  obtain ⟨j, m, hlast, hid⟩ := h.defined id M hM
  exact ⟨j, m, (lastMessage_append_of_not_message hm).2 hlast, hid⟩

/-- A line that neither ends a block nor defines a message leaves the message
that is being defined. -/
theorem Describes.current_append {p : Progress} (h : Describes lines p)
    (hends : ¬ EndsBlock line) (hm : ∀ m, ¬ States (.message m) line)
    (id : UInt32) : p.current = some id ↔ Defining (lines ++ [line]) id := by
  rw [defining_append_singleton, h.current_iff]
  constructor
  · exact fun hid => .inl ⟨hid, hends⟩
  · rintro (⟨hid, -⟩ | ⟨m, hm', -⟩)
    · exact hid
    · exact absurd hm' (hm m)

/-- **A blank line** ends the block and is otherwise without effect. -/
theorem Describes.accept_blank {p : Progress} (h : Describes lines p)
    (hst : States .blank line)
    (hplace : Begins signalKeyword line → p.current.isSome = true) :
    Describes (lines ++ [line]) (p.advance.accept .blank) := by
  have hm : ∀ m, ¬ States (.message m) line := fun m hm =>
    Statement.noConfusion (hm.unique hst)
  have hs : ∀ s, ¬ States (.signal s) line := fun s hs =>
    Statement.noConfusion (hs.unique hst)
  refine ⟨h.wellFormed_append hst, h.enclosed_append hplace, fun id => ?_,
    h.defined_append hm, h.stored_append hm hs⟩
  rw [defining_append_singleton]
  constructor
  · exact fun hid => absurd hid (by simp [Progress.accept, Progress.close])
  · rintro (⟨-, hends⟩ | ⟨m, hm', -⟩)
    · exact absurd (.inr hst.kind) hends
    · exact absurd hm' (hm m)

/-- **A line of no concern** is without effect. -/
theorem Describes.accept_other {p : Progress} (h : Describes lines p)
    (hst : States .other line)
    (hplace : Begins signalKeyword line → p.current.isSome = true) :
    Describes (lines ++ [line]) (p.advance.accept .other) := by
  have hm : ∀ m, ¬ States (.message m) line := fun m hm =>
    Statement.noConfusion (hm.unique hst)
  have hs : ∀ s, ¬ States (.signal s) line := fun s hs =>
    Statement.noConfusion (hs.unique hst)
  obtain ⟨word, hword, hne, -⟩ := hst.kind
  have hends : ¬ EndsBlock line := by
    rintro (hbegins | hblank)
    · exact hne (hword.unique hbegins)
    · exact hword.words_ne_nil hblank
  exact ⟨h.wellFormed_append hst, h.enclosed_append hplace,
    h.current_append hends hm, h.defined_append hm, h.stored_append hm hs⟩

/-- **A message** is stored without signals and takes the place of any that had
its identifier. -/
theorem Describes.accept_message {p : Progress} (h : Describes lines p)
    {m : Message} (hst : States (.message m) line)
    (hplace : Begins signalKeyword line → p.current.isSome = true) :
    Describes (lines ++ [line]) (p.advance.accept (.message m)) := by
  have hm : ∀ m', States (.message m') line → m' = m := fun m' hm' =>
    Statement.message.inj (hm'.unique hst)
  have hget : ∀ id, (p.advance.accept (.message m)).catalog.get? id
      = if m.id = id then some m else p.catalog.get? id :=
    Catalog.get?_insert p.catalog m
  refine ⟨h.wellFormed_append hst, h.enclosed_append hplace, fun id => ?_,
    fun id M hM => ?_, fun j m' hlast => ?_⟩
  · rw [defining_append_singleton]
    constructor
    · intro hid
      exact .inr ⟨m, hst, Option.some.inj hid⟩
    · rintro (⟨-, hends⟩ | ⟨m', hm', rfl⟩)
      · exact absurd (.inl hst.kind) hends
      · rw [hm m' hm']
        rfl
  · rw [hget] at hM
    by_cases hid : m.id = id
    · exact ⟨lines.length, m,
        lastMessage_append_singleton.2 (.inr ⟨rfl, hst⟩), hid⟩
    · rw [if_neg hid] at hM
      obtain ⟨j, m', hlast, hid'⟩ := h.defined id M hM
      refine ⟨j, m', lastMessage_append_singleton.2 (.inl ⟨hlast, ?_⟩), hid'⟩
      intro m'' hm'' heq
      rw [hm m'' hm'', hid'] at heq
      exact hid heq
  · rw [hget]
    rcases lastMessage_append_singleton.1 hlast with ⟨hlast, hne⟩ | ⟨rfl, hm'⟩
    · rw [if_neg (hne m hst)]
      obtain ⟨M, hM, hholds⟩ := h.stored j m' hlast
      refine ⟨M, hM, hholds.append fun _ s hs => ?_⟩
      exact Statement.noConfusion (hs.unique hst)
    · rw [hm m' hm', if_pos rfl]
      exact ⟨m, rfl, holds_message hst⟩

/-- **A signal** goes into the message that is being defined, and no other
message changes. -/
theorem Describes.accept_signal {p : Progress} (h : Describes lines p)
    {s : Signal} (hst : States (.signal s) line)
    (hplace : Begins signalKeyword line → p.current.isSome = true) :
    Describes (lines ++ [line]) (p.advance.accept (.signal s)) := by
  obtain ⟨id, hid⟩ := Option.isSome_iff_exists.1 (hplace hst.kind)
  obtain ⟨j, m, hopen, hm, rfl⟩ := (h.current_iff id).1 hid
  have hnot : ∀ m', ¬ States (.message m') line := fun m' hm' =>
    Statement.noConfusion (hm'.unique hst)
  have hget : ∀ id, (p.advance.accept (.signal s)).catalog.get? id
      = if m.id = id then (p.catalog.get? m.id).map (fun M => M.put s.name s)
        else p.catalog.get? id := by
    rw [Progress.accept_signal (p := p.advance) hid]
    exact Catalog.get?_modify p.catalog m.id _
  have hcur : (p.advance.accept (.signal s)).current = p.current := by
    rw [Progress.accept_signal (p := p.advance) hid]
    rfl
  -- the message whose block has not ended is the last of its identifier
  have hlastj := hopen.lastMessage hm
  refine ⟨h.wellFormed_append hst, h.enclosed_append hplace, fun id' => ?_,
    fun id' M hM => ?_, fun j' m' hlast => ?_⟩
  · rw [hcur]
    exact h.current_append (not_endsBlock_of_begins hst.kind) hnot id'
  · by_cases hid' : m.id = id'
    · exact ⟨j, m, (lastMessage_append_of_not_message hnot).2 hlastj, hid'⟩
    · rw [hget, if_neg hid'] at hM
      exact h.defined_append hnot id' M hM
  · rw [lastMessage_append_of_not_message hnot] at hlast
    obtain ⟨M, hM, hholds⟩ := h.stored j' m' hlast
    rw [hget]
    by_cases hid' : m.id = m'.id
    · obtain rfl := hlastj.unique hlast hid'
      rw [if_pos hid', hid', hM]
      exact ⟨M.put s.name s, rfl, hholds.put hopen hst⟩
    · rw [if_neg hid']
      refine ⟨M, hM, hholds.append fun hopen' => ?_⟩
      obtain rfl := hopen.unique hopen'
      have heq := hm.states_unique hlast.1
      exact absurd (congrArg Message.id (Statement.message.inj heq)) hid'

/-- **What a line means is what it does.** -/
theorem Describes.accept {p : Progress} (h : Describes lines p)
    {st : Statement}
    (hst : Statement.ofLine p.current.isSome line = .ok st) :
    Describes (lines ++ [line]) (p.advance.accept st) := by
  obtain ⟨hstates, hplace⟩ := Statement.ofLine_eq_ok_iff.1 hst
  cases st with
  | blank => exact h.accept_blank hstates hplace
  | other => exact h.accept_other hstates hplace
  | message m => exact h.accept_message hstates hplace
  | signal s => exact h.accept_signal hstates hplace

/-- **A reading arrives at what its lines mean**, whatever the options. -/
theorem describes_of_readLines {o : Options} {p : Progress}
    (h : Progress.start.readLines o lines = .ok p) : Describes lines p := by
  refine Progress.readLines_induction (motive := Describes) describes_start ?_ h
  intro lines q line r hq ih hr
  obtain ⟨hcoh, -⟩ := Progress.coherent_start.of_readLines hq
  obtain ⟨st, hst, -, rfl⟩ := hcoh.readLine_eq_ok_iff.1 hr
  exact ih.accept hst

/-! ## What is accepted -/

/-- **Without checks, a text is read if its lines are well-formed and its
signals are in blocks.** -/
theorem exists_readLines_iff {o : Options}
    (hm : o.rejectRepeatedMessages = false)
    (hs : o.rejectRepeatedSignals = false) (hr : o.checkRanges = false) :
    (∃ p, Progress.start.readLines o lines = .ok p)
      ↔ (∀ line ∈ lines, WellFormed line)
        ∧ ∀ i, LineAt lines i (Begins signalKeyword) →
          ∃ j, InBlock lines j i := by
  constructor
  · rintro ⟨p, hp⟩
    have h := describes_of_readLines hp
    exact ⟨h.wellFormed, h.enclosed⟩
  · rintro ⟨hwell, hblocks⟩
    cases hp : Progress.start.readLines o lines with
    | ok p => exact ⟨p, rfl⟩
    | error e =>
      obtain ⟨front, line, back, p, _, rfl, hfront, hline, -⟩ :=
        exists_of_readLines_eq_error hp
      have h := describes_of_readLines hfront
      obtain ⟨hcoh, -⟩ := Progress.coherent_start.of_readLines hfront
      -- the line at which the reading stopped can be read in its place
      have hmem : line ∈ front ++ line :: back :=
        List.mem_append_right _ List.mem_cons_self
      obtain ⟨st, hst⟩ := hwell line hmem
      have hread : Statement.ofLine p.current.isSome line = .ok st := by
        refine Statement.ofLine_eq_ok_iff.2 ⟨hst, fun hbegins => ?_⟩
        obtain ⟨j, hj⟩ := hblocks front.length (lineAt_append_cons.2 hbegins)
        exact h.current_isSome_iff.2 ⟨j, (inBlock_append_cons.1 hj).1⟩
      have hok := hcoh.readLine_eq_ok_iff.2
        ⟨st, hread, Progress.objection?_eq_none hm hs hr p st, rfl⟩
      exact absurd (hline.symm.trans hok) (by simp)

/-! ## What is stored -/

/-- A signal of the progress is stated by one of the lines. -/
theorem Describes.exists_states {p : Progress} (h : Describes lines p)
    {id : UInt32} {M : Message} (hM : p.catalog.get? id = some M)
    {name : String} {s : Signal} (hs : M.signal? name = some s) :
    ∃ line ∈ lines, States (.signal s) line := by
  obtain ⟨j, m, hlast, rfl⟩ := h.defined id M hM
  obtain ⟨M', hM', hholds⟩ := h.stored j m hlast
  obtain rfl := Option.some.inj (hM.symm.trans hM')
  obtain ⟨-, i, -, ⟨line, hline, hstates⟩, -⟩ :=
    (hholds.signal?_eq_some_iff name s).1 hs
  exact ⟨line, List.mem_of_getElem? hline, hstates⟩

/-- **Every signal of a catalogue is stated by a line of its text**, whatever
was selected. -/
theorem exists_states_of_outcome {o : Options} {text : List Char} {c : Catalog}
    (h : (ofText o text).outcome = .ok c) {id : UInt32} {M : Message}
    (hM : c.get? id = some M) {name : String} {s : Signal}
    (hs : M.signal? name = some s) :
    ∃ line ∈ linesOf text, States (.signal s) line := by
  obtain ⟨p, hp, rfl⟩ := outcome_ofText_eq_ok_iff.1 h
  rw [Catalog.get?_restrict, Option.filter_eq_some_iff] at hM
  exact (describes_of_readLines hp).exists_states hM.1 hs

/-! ## The meaning of a text -/

/-- A message has the names of the signals in its block. -/
theorem Holds.contains_iff {j : Nat} {m M : Message} (h : Holds lines j m M)
    (name : String) :
    M.signals.contains name = true
      ↔ ∃ i s, InBlock lines j i ∧ LineAt lines i (States (.signal s))
        ∧ s.name = name := by
  rw [Message.contains_signals, Option.isSome_iff_exists]
  constructor
  · rintro ⟨s, hs⟩
    obtain ⟨hname, i, hblock, hi, -⟩ := (h.signal?_eq_some_iff name s).1 hs
    exact ⟨i, s, hblock, hi, hname⟩
  · rintro ⟨i, s, hblock, hi, hname⟩
    obtain ⟨i', s', hlast, hname'⟩ := exists_lastSignal hblock hi
    exact ⟨s', (h.signal?_eq_some_iff name s').2
      ⟨hname'.trans hname, i', hlast⟩⟩

/-- An identifier is in the catalogue if a message of the text carries it. -/
theorem Describes.isSome_get?_iff {p : Progress} (h : Describes lines p)
    (id : UInt32) :
    (p.catalog.get? id).isSome = true
      ↔ ∃ j m, LineAt lines j (States (.message m)) ∧ m.id = id := by
  rw [Option.isSome_iff_exists]
  constructor
  · rintro ⟨M, hM⟩
    obtain ⟨j, m, hlast, hid⟩ := h.defined id M hM
    exact ⟨j, m, hlast.1, hid⟩
  · rintro ⟨j, m, hm, rfl⟩
    obtain ⟨j', m', hlast, hid⟩ := exists_lastMessage hm
    obtain ⟨M, hM, -⟩ := h.stored j' m' hlast
    exact ⟨M, hid ▸ hM⟩

/-- **The meaning of a text**, under the default options. A text is read if
every line that begins a message or a signal is well-formed and every signal is
in the block of a message. In the catalogue are the identifiers that occur; and
the message under one of them is the last one defined with it, with the names
in the block of that definition and no others, each bound to the last signal
that has it there, without a value. -/
theorem meaning (text : List Char) :
    ((∃ c, (ofText .default text).outcome = .ok c)
      ↔ (∀ line ∈ linesOf text,
          Begins messageKeyword line ∨ Begins signalKeyword line →
            WellFormed line)
        ∧ ∀ i, LineAt (linesOf text) i (Begins signalKeyword) →
          ∃ j, InBlock (linesOf text) j i)
    ∧ ∀ c, (ofText .default text).outcome = .ok c → ∀ id,
      ((c.get? id).isSome = true
        ↔ ∃ j m, LineAt (linesOf text) j (States (.message m)) ∧ m.id = id)
      ∧ ∀ j m, LastMessage (linesOf text) j m → m.id = id →
        ∃ M, c.get? id = some M ∧ M.id = id ∧ M.genus = m.genus
          ∧ M.frameBytes = m.frameBytes ∧ M.family = m.family
          ∧ (∀ name, M.signals.contains name = true
            ↔ ∃ i s, InBlock (linesOf text) j i
              ∧ LineAt (linesOf text) i (States (.signal s)) ∧ s.name = name)
          ∧ ∀ i s, LastSignal (linesOf text) j i s →
            M.signal? s.name = some s ∧ s.value = none := by
  constructor
  · have hok : (∃ c, (ofText .default text).outcome = .ok c)
        ↔ ∃ p, Progress.start.readLines .default (linesOf text) = .ok p := by
      constructor
      · rintro ⟨c, hc⟩
        obtain ⟨p, hp, -⟩ := outcome_ofText_eq_ok_iff.1 hc
        exact ⟨p, hp⟩
      · rintro ⟨p, hp⟩
        exact ⟨_, outcome_ofText_eq_ok_iff.2 ⟨p, hp, rfl⟩⟩
    rw [hok, exists_readLines_iff rfl rfl rfl]
    refine and_congr_left fun _ => forall₂_congr fun line _ => ?_
    -- a line that begins otherwise is well-formed in any case
    constructor
    · exact fun h _ => h
    · intro h
      by_cases hbegins : Begins messageKeyword line ∨ Begins signalKeyword line
      · exact h hbegins
      · obtain ⟨hm, hs⟩ := not_or.1 hbegins
        exact Statement.wellFormed_of_not_begins hm hs
  · intro c hc id
    obtain ⟨p, hp, rfl⟩ := outcome_ofText_eq_ok_iff.1 hc
    have h := describes_of_readLines hp
    have hget : ∀ id, (p.catalog.restrict Options.default.keeps).get? id
        = p.catalog.get? id := by
      intro id
      rw [Catalog.get?_restrict]
      cases p.catalog.get? id <;> rfl
    rw [hget]
    refine ⟨h.isSome_get?_iff id, ?_⟩
    rintro j m hlast rfl
    obtain ⟨M, hM, hholds⟩ := h.stored j m hlast
    refine ⟨M, hM, hholds.id_eq, hholds.genus_eq, hholds.frameBytes_eq,
      hholds.family_eq, hholds.contains_iff, fun i s hs => ?_⟩
    obtain ⟨line, -, hline⟩ := hs.2.1
    exact ⟨(hholds.signal?_eq_some_iff _ s).2 ⟨rfl, i, hs⟩, hline.value_eq⟩

end CanCatalog.Reading
