import CanCatalog.Proofs.Reading.Meaning
import CanCatalog.Proofs.Reading.Records
import CanCatalog.Proofs.Reading.Selection
import Mathlib.Data.Finset.Card
import Mathlib.Data.Finset.Lattice.Lemmas

/-!
# The log as an account

Whoever keeps the log of a reading and not the text can still tell what
happened, provided that the log is an account: that every record is owed to a
line and every line has left the records it owes. What a line owes is said of
the text alone (`Leaves`). A message is replaced if an earlier line defines one
with its identifier, and a signal if an earlier line of the same block defines
one with its name. The log is made of what the lines leave, in their order
(`Recorded`), and a reading that fails leaves what the lines before the fault
do.

From this the numbers follow. Each message leaves one record that it was opened,
and before it another one if it replaced a message. So the identifiers of a text
can be counted in its log, as messages opened less messages replaced; and a
catalogue from which nothing was left out has just as many messages.
-/

namespace CanCatalog

open Statement (Begins States messageKeyword signalKeyword)

/-- Whether a record tells that a message takes the place of another one. -/
def Event.replacesMessage : Event → Bool
  | messageReplaced .. => true
  | _ => false

/-- A record of the course of a reading is about no line. -/
theorem Event.line?_eq_none {r : Event} (h : r.level = .info) :
    r.line? = none := by
  cases r <;> first | rfl | exact absurd h (by simp [level])

theorem Event.replacesMessage_eq_false {r : Event} (h : r.level = .info) :
    r.replacesMessage = false := by
  cases r <;> first | rfl | exact absurd h (by simp [level])

/-- **A line of no concern** has words, and the first one announces neither a
message nor a signal. -/
def Statement.OfNoConcern (line : List Char) : Prop :=
  Text.words line ≠ [] ∧ ¬ Begins messageKeyword line
    ∧ ¬ Begins signalKeyword line

instance (line : List Char) : Decidable (Statement.OfNoConcern line) :=
  inferInstanceAs (Decidable (_ ∧ _ ∧ _))

/-- A line is of no concern if that is what it states. -/
theorem Statement.States.ofNoConcern_iff {st : Statement} {line : List Char}
    (h : States st line) : OfNoConcern line ↔ st = .other := by
  cases st with
  | blank => exact iff_of_false (fun hline => hline.1 h.kind) (by simp)
  | message m => exact iff_of_false (fun hline => hline.2.1 h.kind) (by simp)
  | signal s => exact iff_of_false (fun hline => hline.2.2 h.kind) (by simp)
  | other =>
    obtain ⟨word, hword, hm, hs⟩ := h.kind
    exact iff_of_true ⟨hword.words_ne_nil, fun hbegins =>
      hm (hword.unique hbegins), fun hbegins => hs (hword.unique hbegins)⟩ rfl

/-- The identifier of the message that a line defines, if it defines one. -/
def Statement.messageId? (line : List Char) : Option UInt32 :=
  match Statement.ofLine true line with
  | .ok (.message m) => some m.id
  | _ => none

theorem Statement.messageId?_eq_some_iff {line : List Char} {id : UInt32} :
    messageId? line = some id ↔ ∃ m, States (.message m) line ∧ m.id = id := by
  constructor
  · intro h
    unfold messageId? at h
    split at h
    · next m hm => exact ⟨m, hm, Option.some.inj h⟩
    · exact absurd h (by simp)
  · rintro ⟨m, hm, rfl⟩
    have hread : ofLine true line = .ok (.message m) := hm
    unfold messageId?
    rw [hread]

/-- Lines that state something else define no message. -/
theorem Statement.messageId?_eq_none {line : List Char}
    (h : ∀ m, ¬ States (.message m) line) : messageId? line = none :=
  Option.eq_none_iff_forall_ne_some.2 fun _ hid => by
    obtain ⟨m, hm, -⟩ := messageId?_eq_some_iff.1 hid
    exact h m hm

namespace Reading

variable {lines front : List (List Char)} {line : List Char}
  {events more : List Event}

/-! ## The identifiers of a text -/

/-- **The identifiers that the messages of a text carry.** -/
def messageIds (lines : List (List Char)) : Finset UInt32 :=
  (lines.filterMap Statement.messageId?).toFinset

theorem mem_messageIds_iff {id : UInt32} :
    id ∈ messageIds lines
      ↔ ∃ j m, LineAt lines j (States (.message m)) ∧ m.id = id := by
  unfold messageIds LineAt
  rw [List.mem_toFinset, List.mem_filterMap]
  constructor
  · rintro ⟨line, hline, hid⟩
    obtain ⟨j, hj⟩ := List.mem_iff_getElem?.1 hline
    obtain ⟨m, hm, hid⟩ := Statement.messageId?_eq_some_iff.1 hid
    exact ⟨j, m, ⟨line, hj, hm⟩, hid⟩
  · rintro ⟨j, m, ⟨line, hj, hm⟩, hid⟩
    exact ⟨line, List.mem_of_getElem? hj,
      Statement.messageId?_eq_some_iff.2 ⟨m, hm, hid⟩⟩

/-- One more message has one more identifier, unless that occurred before. -/
theorem messageIds_append_message {m : Message}
    (h : States (.message m) line) :
    messageIds (lines ++ [line]) = insert m.id (messageIds lines) := by
  have hid := Statement.messageId?_eq_some_iff.2 ⟨m, h, rfl⟩
  unfold messageIds
  rw [List.filterMap_append, List.toFinset_append, List.filterMap_cons, hid,
    List.filterMap_nil, Finset.union_comm]
  rfl

/-- Other lines have no identifier. -/
theorem messageIds_append_of_not_message
    (h : ∀ m, ¬ States (.message m) line) :
    messageIds (lines ++ [line]) = messageIds lines := by
  unfold messageIds
  rw [List.filterMap_append, List.filterMap_cons,
    Statement.messageId?_eq_none h, List.filterMap_nil, List.append_nil]

/-! ## What a line leaves -/

/-- **What a line leaves in the log**, behind other lines. Lines are counted
from one. -/
inductive Leaves (front : List (List Char)) (line : List Char) :
    List Event → Prop where
  /-- A blank line leaves nothing. -/
  | blank (states : States .blank line) : Leaves front line []
  /-- A line of no concern is skipped. -/
  | other (states : States .other line) :
    Leaves front line [.skipped (front.length + 1) (String.ofList line)]
  /-- A message with a new identifier is opened. -/
  | message {m : Message} (states : States (.message m) line)
    (new : m.id ∉ messageIds front) :
    Leaves front line [.messageOpened (front.length + 1) m.id m.genus]
  /-- A message with an identifier that occurred takes the place of another one,
  and is opened. -/
  | messageAgain {m : Message} (states : States (.message m) line)
    (again : m.id ∈ messageIds front) :
    Leaves front line [.messageReplaced (front.length + 1) m.id,
      .messageOpened (front.length + 1) m.id m.genus]
  /-- A signal with a new name in its block leaves nothing. -/
  | signal {s : Signal} {j : Nat} (states : States (.signal s) line)
    (block : Unended front j)
    (new : ∀ i s', InBlock front j i → LineAt front i (States (.signal s')) →
      s'.name ≠ s.name) :
    Leaves front line []
  /-- A signal with a name that occurred in its block takes the place of another
  one. -/
  | signalAgain {s s' : Signal} {m : Message} {i j : Nat}
    (states : States (.signal s) line) (block : Unended front j)
    (heading : LineAt front j (States (.message m)))
    (inBlock : InBlock front j i)
    (earlier : LineAt front i (States (.signal s'))) (again : s'.name = s.name) :
    Leaves front line [.signalReplaced (front.length + 1) m.id s.name]

/-- **The records of lines**, in the order of the lines. -/
inductive Recorded : List (List Char) → List Event → Prop where
  /-- Without lines there are no records. -/
  | nil : Recorded [] []
  /-- One more line adds what it leaves. -/
  | line {front : List (List Char)} {events : List Event} {line : List Char}
    {more : List Event} (before : Recorded front events)
    (last : Leaves front line more) :
    Recorded (front ++ [line]) (events ++ more)

/-- **Whoever is replaced is replaced by a message**: behind each record that
one takes the place of another stands the record that it is opened, for the same
line. -/
def Announced (log : List Event) : Prop :=
  ∀ i n id, log[i]? = some (.messageReplaced n id) →
    ∃ genus, log[i + 1]? = some (.messageOpened n id genus)

namespace Announced

/-- Records of other kinds need nothing behind them. -/
theorem of_forall {log : List Event}
    (h : ∀ r ∈ log, r.replacesMessage = false) : Announced log := by
  intro i n id hi
  have hfalse := h _ (List.mem_of_getElem? hi)
  exact absurd hfalse (by simp [Event.replacesMessage])

/-- A record that a message takes the place of another one, and the record that
it is opened. -/
theorem pair (n : Nat) (id : UInt32) (genus : String) :
    Announced [.messageReplaced n id, .messageOpened n id genus] := by
  intro i n' id' hi
  match i with
  | 0 =>
    obtain ⟨rfl, rfl⟩ := Event.messageReplaced.inj (Option.some.inj hi)
    exact ⟨genus, rfl⟩
  | 1 => exact absurd hi (by simp)
  | i + 2 => exact absurd hi (by simp)

/-- Logs can be put together. -/
theorem append {front back : List Event} (hfront : Announced front)
    (hback : Announced back) : Announced (front ++ back) := by
  intro i n id hi
  by_cases hlt : i < front.length
  · rw [List.getElem?_append_left hlt] at hi
    obtain ⟨genus, hnext⟩ := hfront i n id hi
    have hlt' := (List.getElem?_eq_some_iff.1 hnext).1
    exact ⟨genus, by rw [List.getElem?_append_left hlt', hnext]⟩
  · have hle := Nat.le_of_not_lt hlt
    rw [List.getElem?_append_right hle] at hi
    obtain ⟨genus, hnext⟩ := hback _ n id hi
    refine ⟨genus, ?_⟩
    rw [List.getElem?_append_right (Nat.le_succ_of_le hle),
      Nat.succ_sub hle, hnext]

end Announced

namespace Leaves

/-- What a line leaves is about that line. -/
theorem line?_of_mem (h : Leaves front line more) {r : Event} (hr : r ∈ more) :
    r.line? = some (front.length + 1) := by
  cases h with
  | blank => exact absurd hr List.not_mem_nil
  | other =>
    rw [List.mem_singleton.1 hr]
    rfl
  | message =>
    rw [List.mem_singleton.1 hr]
    rfl
  | messageAgain =>
    rcases List.mem_cons.1 hr with rfl | hr
    · rfl
    · rw [List.mem_singleton.1 hr]
      rfl
  | signal => exact absurd hr List.not_mem_nil
  | signalAgain =>
    rw [List.mem_singleton.1 hr]
    rfl

/-- **A line opens a message if it begins as one, and is skipped if it is of no
concern.** -/
theorem countP_level (h : Leaves front line more) :
    more.countP (·.level = .debug) = [line].countP (Begins messageKeyword ·)
      ∧ more.countP (·.level = .trace)
        = [line].countP (Statement.OfNoConcern ·) := by
  rw [List.countP_singleton, List.countP_singleton]
  have hline : ∀ {st}, States st line →
      ((Begins messageKeyword line ↔ ∃ m, st = .message m)
        ∧ (Statement.OfNoConcern line ↔ st = .other)) :=
    fun hst => ⟨hst.begins_message_iff, hst.ofNoConcern_iff⟩
  cases h with
  | blank states => simp [hline states]
  | other states => simp [hline states, Event.level]
  | message states => simp [hline states, Event.level]
  | messageAgain states => simp [hline states, Event.level]
  | signal states => simp [hline states]
  | signalAgain states => simp [hline states, Event.level]

/-- **A line that opens a message adds an identifier or replaces a message**,
and other lines do neither. -/
theorem card_messageIds (h : Leaves front line more) :
    (messageIds (front ++ [line])).card + more.countP (·.replacesMessage)
      = (messageIds front).card + more.countP (·.level = .debug) := by
  have hother : ∀ {st}, States st line → (∀ m, st ≠ .message m) →
      messageIds (front ++ [line]) = messageIds front := fun hst hne =>
    messageIds_append_of_not_message fun m hm => hne m (hst.unique hm)
  cases h with
  | blank states =>
    rw [hother states (by simp)]
    rfl
  | other states =>
    rw [hother states (by simp)]
    rfl
  | message states new =>
    rw [messageIds_append_message states, Finset.card_insert_of_notMem new]
    rfl
  | messageAgain states again =>
    rw [messageIds_append_message states, Finset.insert_eq_of_mem again]
    rfl
  | signal states =>
    rw [hother states (by simp)]
    rfl
  | signalAgain states =>
    rw [hother states (by simp)]
    rfl

theorem announced (h : Leaves front line more) : Announced more := by
  cases h with
  | messageAgain => exact .pair _ _ _
  | blank => exact .of_forall (by simp)
  | other => exact .of_forall (by simp [Event.replacesMessage])
  | message => exact .of_forall (by simp [Event.replacesMessage])
  | signal => exact .of_forall (by simp)
  | signalAgain => exact .of_forall (by simp [Event.replacesMessage])

end Leaves

/-! ## What a text leaves -/

namespace Recorded

/-- Records are about the lines that left them. -/
theorem line?_of_mem (h : Recorded lines events) {r : Event} (hr : r ∈ events) :
    ∃ n, r.line? = some n ∧ n ≤ lines.length := by
  induction h with
  | nil => exact absurd hr List.not_mem_nil
  | line before last ih =>
    rw [List.length_append, List.length_singleton]
    rcases List.mem_append.1 hr with hr | hr
    · obtain ⟨n, hn, hle⟩ := ih hr
      exact ⟨n, hn, Nat.le_succ_of_le hle⟩
    · exact ⟨_, last.line?_of_mem hr, Nat.le_refl _⟩

/-- **Messages are opened once for each line that begins as one, and lines of no
concern are skipped.** -/
theorem countP_level (h : Recorded lines events) :
    events.countP (·.level = .debug) = lines.countP (Begins messageKeyword ·)
      ∧ events.countP (·.level = .trace)
        = lines.countP (Statement.OfNoConcern ·) := by
  induction h with
  | nil => exact ⟨rfl, rfl⟩
  | line _ last ih =>
    obtain ⟨hopened, hskipped⟩ := last.countP_level
    simp only [List.countP_append]
    rw [ih.1, ih.2, hopened, hskipped]
    exact ⟨rfl, rfl⟩

/-- **Messages are opened as often as one is replaced or an identifier is
new.** -/
theorem card_messageIds (h : Recorded lines events) :
    events.countP (·.level = .debug)
      = events.countP (·.replacesMessage) + (messageIds lines).card := by
  induction h with
  | nil => rfl
  | line _ last ih =>
    have hline := last.card_messageIds
    rw [List.countP_append, List.countP_append]
    omega

/-- **The records are in the order of the lines.** -/
theorem pairwise (h : Recorded lines events) :
    (events.filterMap Event.line?).Pairwise (· ≤ ·) := by
  induction h with
  | nil => exact .nil
  | @line front events line more before last ih =>
    have hlast : ∀ n ∈ more.filterMap Event.line?, n = front.length + 1 := by
      intro n hn
      obtain ⟨r, hr, hrn⟩ := List.mem_filterMap.1 hn
      exact Option.some.inj (hrn.symm.trans (last.line?_of_mem hr))
    rw [List.filterMap_append, List.pairwise_append]
    refine ⟨ih, ?_, ?_⟩
    · refine List.pairwise_of_forall_mem_list fun a ha b hb => ?_
      rw [hlast a ha, hlast b hb]
    · intro a ha b hb
      obtain ⟨r, hr, hra⟩ := List.mem_filterMap.1 ha
      obtain ⟨n, hn, hle⟩ := before.line?_of_mem hr
      obtain rfl := Option.some.inj (hn.symm.trans hra)
      rw [hlast b hb]
      exact Nat.le_succ_of_le hle

theorem announced (h : Recorded lines events) : Announced events := by
  induction h with
  | nil => exact .of_forall (by simp)
  | line _ last ih => exact ih.append last.announced

end Recorded

/-- **A log accounts for lines**: for each that begins as a message does it has
a record that a message was opened, and for each of no concern one that it was
skipped. Each message that is opened has a new identifier or takes the place of
another one. The records are in the order of the lines. -/
structure Accounts (lines : List (List Char)) (log : List Event) : Prop where
  /-- The messages are those that were opened. -/
  opened : log.countP (·.level = .debug)
    = lines.countP (Begins messageKeyword ·)
  /-- The lines of no concern are those that were skipped. -/
  skipped : log.countP (·.level = .trace)
    = lines.countP (Statement.OfNoConcern ·)
  /-- What is opened is new or takes the place of another. -/
  distinct : log.countP (·.level = .debug)
    = log.countP (·.replacesMessage) + (messageIds lines).card
  /-- Records about lines are in their order. -/
  ordered : (log.filterMap Event.line?).Pairwise (· ≤ ·)
  /-- Before a message takes the place of another one, this is said. -/
  announced : Announced log

/-- **Records of the course of a reading do not count**: where they stand before
and behind those of lines, the lines are accounted for. -/
theorem Recorded.accounts (h : Recorded lines events)
    {before after : List Event} (hinfo : ∀ r ∈ before ++ after, r.level = .info) :
    Accounts lines (before ++ events ++ after) := by
  have hcount : ∀ P : Event → Bool, (∀ r, r.level = .info → P r = false) →
      (before ++ events ++ after).countP P = events.countP P := by
    intro P hP
    have hnone : ∀ r ∈ before ++ after, ¬ P r = true := fun r hr =>
      Bool.eq_false_iff.1 (hP r (hinfo r hr))
    rw [List.countP_append, List.countP_append, Nat.add_right_comm,
      ← List.countP_append, List.countP_eq_zero.2 hnone, Nat.zero_add]
  have hmap : (before ++ events ++ after).filterMap Event.line?
      = events.filterMap Event.line? := by
    have hnil : ∀ r ∈ before ++ after, r.line? = none := fun r hr =>
      Event.line?_eq_none (hinfo r hr)
    rw [List.forall_mem_append] at hnil
    rw [List.filterMap_append, List.filterMap_append,
      List.filterMap_eq_nil_iff.2 hnil.1, List.filterMap_eq_nil_iff.2 hnil.2,
      List.nil_append, List.append_nil]
  have hends : ∀ r ∈ before ++ after, r.replacesMessage = false := fun r hr =>
    Event.replacesMessage_eq_false (hinfo r hr)
  rw [List.forall_mem_append] at hends
  refine ⟨?_, ?_, ?_, ?_, ?_⟩
  · rw [hcount _ (by simp +contextual), h.countP_level.1]
  · rw [hcount _ (by simp +contextual), h.countP_level.2]
  · rw [hcount _ (by simp +contextual),
      hcount _ fun _ => Event.replacesMessage_eq_false, h.card_messageIds]
  · rw [hmap]
    exact h.pairwise
  · exact ((Announced.of_forall hends.1).append h.announced).append
      (.of_forall hends.2)

/-- **What a line means is what it leaves.** -/
theorem Describes.leaves {p : Progress} (h : Describes front p)
    (hcoh : p.Coherent) (hlines : p.lines = front.length) {st : Statement}
    (hst : Statement.ofLine p.current.isSome line = .ok st) :
    Leaves front line (p.advance.records line st) := by
  obtain ⟨hstates, hplace⟩ := Statement.ofLine_eq_ok_iff.1 hst
  have hcount : p.advance.lines = front.length + 1 := congrArg (· + 1) hlines
  cases st with
  | blank => exact .blank hstates
  | other =>
    unfold Progress.records
    rw [hcount]
    exact .other hstates
  | message m =>
    have hmem : p.advance.catalog.contains m.id = true
        ↔ m.id ∈ messageIds front := by
      rw [Catalog.contains_eq_isSome, mem_messageIds_iff]
      exact h.isSome_get?_iff m.id
    unfold Progress.records
    rw [hcount]
    dsimp only
    split
    · next hc => exact .messageAgain hstates (hmem.1 hc)
    · next hc => exact .message hstates (mt hmem.2 hc)
  | signal s =>
    obtain ⟨id, hid⟩ := Option.isSome_iff_exists.1 (hplace hstates.kind)
    obtain ⟨j, m, hopen, hm, rfl⟩ := (h.current_iff id).1 hid
    obtain ⟨M, hM, -, hcur⟩ := hcoh.advance.currentMessage? hid
    obtain ⟨M', hM', hholds⟩ := h.stored j m (hopen.lastMessage hm)
    obtain rfl := Option.some.inj (hM.symm.trans hM')
    unfold Progress.records
    rw [hcur, hcount]
    dsimp only
    split
    · next hc =>
      obtain ⟨i, s', hblock, hs', hname⟩ := (hholds.contains_iff s.name).1 hc
      exact .signalAgain hstates hopen hm hblock hs' hname
    · next hc =>
      exact .signal hstates hopen fun i s' hblock hs' hname =>
        hc ((hholds.contains_iff s.name).2 ⟨i, s', hblock, hs', hname⟩)

/-! ## The log of a text -/

/-- Lines as they are looked at, with one more line and others behind it. -/
theorem modifyHead_append_cons (front : List (List Char)) (line : List Char)
    (back : List (List Char)) :
    (front ++ line :: back).modifyHead withoutMark
      = front.modifyHead withoutMark
        ++ (if front.length = 0 then withoutMark line else line) :: back := by
  cases front <;> rfl

theorem after_after (run : Run) (first last : List Event) :
    (run.after last).after first = run.after (first ++ last) := by
  unfold Run.after
  rw [List.append_assoc]

/-- **A step that is taken leaves what its line leaves.** -/
theorem Describes.leaves_step {p q : Progress} (h : Describes front p)
    (hcoh : p.Coherent) (hlines : p.lines = front.length) {o : Options}
    (hq : p.readLine o (p.seen line) = .ok q) :
    Leaves front (p.seen line) (p.step o line).log := by
  obtain ⟨st, hst, hobj, -⟩ := hcoh.readLine_eq_ok_iff.1 hq
  rw [hcoh.log_step hst hobj]
  exact h.leaves hcoh hlines hst

/-- **Lines that are read leave their records**, and then what is behind them is
read. -/
theorem exists_recorded {o : Options} {raw : List (List Char)} :
    ∀ {p : Progress},
      Progress.start.readLines o (raw.modifyHead withoutMark) = .ok p →
      ∃ events, Recorded (raw.modifyHead withoutMark) events
        ∧ ∀ rest, readOn o .start (raw.map .ok ++ rest)
          = (readOn o p rest).after events := by
  induction raw using List.reverseRecOn with
  | nil =>
    intro p h
    obtain rfl := Except.ok.inj h
    exact ⟨[], .nil, fun rest => rfl⟩
  | append_singleton raw line ih =>
    intro p h
    rw [modifyHead_append_cons] at h ⊢
    obtain ⟨q, hq, hp⟩ := Progress.readLines_append_eq_ok_iff.1 h
    obtain ⟨hcoh, hlines⟩ := Progress.of_readLines_start hq
    have hseen : (if raw.length = 0 then withoutMark line else line)
        = q.seen line := by
      rw [Progress.seen, hlines, List.length_modifyHead]
    rw [hseen] at hp ⊢
    rw [Progress.readLines_singleton] at hp
    obtain ⟨events, hevents, hrun⟩ := ih hq
    have hmore := (describes_of_readLines hq).leaves_step hcoh hlines hp
    refine ⟨events ++ (q.step o line).log, .line hevents hmore, fun rest => ?_⟩
    rw [← Progress.outcome_step] at hp
    rw [List.map_append, List.append_assoc, hrun, List.map_singleton,
      List.singleton_append, readOn_of_ok hp]
    exact after_after _ _ _

/-- A catalogue has as many messages as its text has identifiers. -/
theorem Describes.size_eq {p : Progress} (h : Describes lines p) :
    p.catalog.size = (messageIds lines).card := by
  have hids : p.catalog.ids.toFinset = messageIds lines := by
    ext id
    rw [List.mem_toFinset, Catalog.mem_ids, Catalog.contains_eq_isSome,
      h.isSome_get?_iff, mem_messageIds_iff]
  rw [← hids, List.toFinset_card_of_nodup p.catalog.nodup_ids]
  exact p.catalog.size_eq_length_ids

/-- The lines of a text that stand before a line, as they were before a byte
order mark was taken off. -/
theorem exists_of_linesOf_eq {text : List Char} {back : List (List Char)}
    (h : linesOf text = front ++ line :: back) :
    ∃ raw first, (Text.Lines.ofChars text).toList = raw ++ first :: back
      ∧ raw.modifyHead withoutMark = front
      ∧ (if front.length = 0 then withoutMark first else first) = line := by
  have hlt : front.length < (Text.Lines.ofChars text).toList.length := by
    rw [← length_linesOf, h, List.length_append, List.length_cons]
    omega
  obtain ⟨raw, first, rest, hraw, hlength⟩ := exists_append_cons_of_lt hlt
  rw [linesOf, hraw, modifyHead_append_cons] at h
  obtain ⟨hfront, hcons⟩ :=
    List.append_inj h (List.length_modifyHead.trans hlength)
  obtain ⟨hfirst, rfl⟩ := List.cons.inj hcons
  rw [hlength] at hfirst
  exact ⟨raw, first, hraw, hfront, hfirst⟩

/-- **The log of a text that is read**: the records of its lines, between one
that it is begun and one that it is at its end. -/
theorem exists_log_of_ok {o : Options} {text : List Char} {p : Progress}
    (h : Progress.start.readLines o (linesOf text) = .ok p) :
    ∃ events, Recorded (linesOf text) events
      ∧ (ofText o text).log = [.started] ++ events ++ (finish o p).log := by
  obtain ⟨events, hevents, hrun⟩ := exists_recorded h
  have hread := hrun []
  rw [List.append_nil] at hread
  refine ⟨events, hevents, ?_⟩
  show [Event.started] ++ (readOn o .start _).log = _
  rw [hread, List.append_assoc]
  rfl

/-- **The log of a text that is refused**: the records of the lines before the
one with the fault, behind one that the text is begun. -/
theorem exists_log_of_error {o : Options} {text : List Char} {e : ReadError}
    (h : Progress.start.readLines o (linesOf text) = .error e) :
    ∃ front line back fault events, linesOf text = front ++ line :: back
      ∧ e = .atLine (front.length + 1) fault
      ∧ Recorded front events
      ∧ (ofText o text).log = [.started] ++ events ++ [] := by
  obtain ⟨front, line, back, p, fault, hlines, hp, hline, he⟩ :=
    exists_of_readLines_eq_error h
  obtain ⟨raw, first, hraw, rfl, hfirst⟩ := exists_of_linesOf_eq hlines
  obtain ⟨hcoh, hcount⟩ := Progress.of_readLines_start hp
  have hseen : p.seen first = line := by
    rw [Progress.seen, hcount, hfirst]
  rw [← hseen, ← Progress.outcome_step] at hline
  obtain ⟨events, hevents, hrun⟩ := exists_recorded hp
  refine ⟨_, line, back, fault, events, hlines, he, hevents, ?_⟩
  have hread := hrun (.ok first :: back.map .ok)
  rw [readOn_of_error hline, hcoh.log_of_step_error hline] at hread
  show [Event.started] ++ (readOn o .start (List.map _ _)).log = _
  rw [hraw, List.map_append, List.map_cons, hread, List.append_assoc]
  rfl

/-- **A log accounts for its reading**, whatever the options. If the reading
fails, the log has the records of the lines before the fault, none of that line,
and no record of an end. If it ends with a catalogue, the log has the records of
all lines, and its last record tells the extent of the catalogue and the number
of lines. In either case the lines that were read are accounted for: messages
are opened once for each line that begins as one, lines of no concern are
skipped, the messages that were opened less those that were replaced are the
identifiers that occur, and the records are in the order of the lines. If all
messages are kept, there are as many as identifiers. -/
theorem log_accounts (o : Options) (text : List Char) :
    (∀ e, (ofText o text).outcome = .error e → ∃ n fault events,
        e = .atLine (n + 1) fault ∧ n < (linesOf text).length
        ∧ (ofText o text).log = .started :: events
        ∧ Recorded ((linesOf text).take n) events
        ∧ Accounts ((linesOf text).take n) (ofText o text).log
        ∧ (∀ r ∈ events, ∃ k, r.line? = some k ∧ k ≤ n)
        ∧ ∀ messages signals lines,
          .finished messages signals lines ∉ (ofText o text).log)
    ∧ ∀ c, (ofText o text).outcome = .ok c → ∃ events last,
        (ofText o text).log = .started :: events ++ [last]
        ∧ Recorded (linesOf text) events
        ∧ Accounts (linesOf text) (ofText o text).log
        ∧ last.level = .info
        ∧ last.text = "Parsed " ++ toString c.extent.messages
          ++ " messages with " ++ toString c.extent.signals ++ " signals from "
          ++ toString (Text.Lines.ofChars text).toList.length ++ " lines"
        ∧ (o.onlyIds = none →
          c.extent.messages = (messageIds (linesOf text)).card) := by
  constructor
  · intro e he
    rw [outcome_ofText_eq_error_iff] at he
    obtain ⟨front, line, back, fault, events, hlines, rfl, hevents, hlog⟩ :=
      exists_log_of_error he
    have htake : (linesOf text).take front.length = front := by
      rw [hlines, List.take_left]
    have hlt : front.length < (linesOf text).length := by
      rw [hlines, List.length_append, List.length_cons]
      omega
    have habout : ∀ r ∈ events, ∃ k, r.line? = some k ∧ k ≤ front.length :=
      fun r hr => hevents.line?_of_mem hr
    refine ⟨front.length, fault, events, rfl, hlt, ?_, ?_, ?_, habout, ?_⟩
    · rw [hlog, List.append_nil]
      rfl
    · rw [htake]
      exact hevents
    · rw [htake, hlog]
      exact hevents.accounts (by simp [Event.level])
    · intro messages signals lines hmem
      rw [hlog, List.append_nil, List.mem_append, List.mem_singleton] at hmem
      rcases hmem with heq | hmem
      · exact absurd heq (by simp)
      · obtain ⟨k, hk, -⟩ := habout _ hmem
        exact absurd hk (by simp [Event.line?])
  · intro c hc
    obtain ⟨p, hp, rfl⟩ := outcome_ofText_eq_ok_iff.1 hc
    obtain ⟨events, hevents, hlog⟩ := exists_log_of_ok hp
    refine ⟨events, _, hlog, hevents, ?_, rfl, ?_, fun hnone => ?_⟩
    · rw [hlog]
      exact hevents.accounts (by simp [finish, Event.level])
    · rw [← length_linesOf, ← (Progress.of_readLines_start hp).2]
      rfl
    · rw [Catalog.restrict_keeps hnone]
      exact (describes_of_readLines hp).size_eq

end Reading

end CanCatalog
