import CanCatalog.Reading.Run

/-!
# What one line does

The effect of a line has three parts that can be told apart. The line is put
into words and becomes a statement, or fails to. The statement is held against
the options, which may object to it (`Progress.objection?`). And a statement
that is not objected to changes the progress in a way that does not depend on
the options any more (`Progress.accept`). So all options agree on what a
reading arrives at, and differ only in where they stop it.

This is true of a progress in which the message being defined is in the
catalogue, and every message is under its own identifier: a *coherent* one.
A reading begins with one and never leaves them, so the case in which a signal
has no message to go to does not occur behind the statement itself
(`Progress.apply_eq`).

Reading a line, as it is meant below, is reading it without a byte order mark.
Where a mark is taken off is a matter of the whole text.
-/

namespace CanCatalog

namespace Progress

/-! ## The parts of a step -/

/-- **What an accepted statement leaves behind.** The options have no part in
it. -/
def accept (p : Progress) : Statement → Progress
  | .blank => p.close
  | .other => p
  | .message m =>
    { p with catalog := p.catalog.insert m, current := some m.id }
  | .signal s =>
    match p.current with
    | some id =>
      { p with catalog := p.catalog.modify id fun m => m.put s.name s }
    | none => p

/-- **What the options have against a statement.** Of two reasons to refuse a
signal the empty range is given. -/
def objection? (o : Options) (p : Progress) : Statement → Option Fault
  | .blank | .other => none
  | .message m =>
    if o.rejectRepeatedMessages && p.catalog.contains m.id then
      some (.repeatedMessage m.id)
    else none
  | .signal s =>
    if o.checkRanges && s.minimum.above s.maximum then
      some (.emptyRange s.name s.minimum s.maximum)
    else p.currentMessage?.bind fun (id, m) =>
      if o.rejectRepeatedSignals && m.signals.contains s.name then
        some (.repeatedSignal id s.name)
      else none

/-- **What is recorded of an accepted statement.** -/
def records (p : Progress) (line : List Char) : Statement → List Event
  | .blank => []
  | .other => [.skipped p.lines (String.ofList line)]
  | .message m =>
    if p.catalog.contains m.id then
      [.messageReplaced p.lines m.id, .messageOpened p.lines m.id m.genus]
    else [.messageOpened p.lines m.id m.genus]
  | .signal s =>
    match p.currentMessage? with
    | some (id, m) =>
      if m.signals.contains s.name then [.signalReplaced p.lines id s.name]
      else []
    | none => []

/-- **The options object to a message** whose identifier is taken, if they are
asked to. -/
theorem objection?_message_iff {o : Options} {p : Progress} {m : Message}
    {fault : Fault} :
    p.objection? o (.message m) = some fault
      ↔ o.rejectRepeatedMessages = true ∧ p.catalog.contains m.id = true
        ∧ fault = .repeatedMessage m.id := by
  unfold objection?
  rw [Option.ite_none_right_eq_some, Bool.and_eq_true, and_assoc,
    Option.some_inj, eq_comm (a := fault)]

/-- **The options object to a signal** with an empty range, or otherwise with a
name that is taken, if they are asked to. -/
theorem objection?_signal_iff {o : Options} {p : Progress} {id : UInt32}
    {m : Message} (hcur : p.currentMessage? = some (id, m)) {s : Signal}
    {fault : Fault} :
    p.objection? o (.signal s) = some fault
      ↔ (o.checkRanges = true ∧ s.minimum.above s.maximum = true)
          ∧ fault = .emptyRange s.name s.minimum s.maximum
        ∨ ¬ (o.checkRanges = true ∧ s.minimum.above s.maximum = true)
          ∧ o.rejectRepeatedSignals = true ∧ m.signals.contains s.name = true
          ∧ fault = .repeatedSignal id s.name := by
  have hobj : p.objection? o (.signal s)
      = if o.checkRanges && s.minimum.above s.maximum then
          some (.emptyRange s.name s.minimum s.maximum)
        else if o.rejectRepeatedSignals && m.signals.contains s.name then
          some (.repeatedSignal id s.name)
        else none := by
    unfold objection?
    rw [hcur]
    rfl
  rw [hobj, ← Bool.and_eq_true]
  by_cases hrange : (o.checkRanges && s.minimum.above s.maximum) = true
  · rw [if_pos hrange, Option.some_inj, eq_comm]
    simp only [hrange, true_and, not_true_eq_false, false_and, or_false]
  · rw [if_neg hrange, Option.ite_none_right_eq_some, Bool.and_eq_true,
      and_assoc, Option.some_inj]
    simp only [hrange, Bool.false_eq_true, false_and, false_or,
      not_false_eq_true, true_and, eq_comm (a := fault)]

/-- **An objection is to a message that is repeated, or to a signal by its
name.** -/
theorem exists_of_objection? {o : Options} {p : Progress} {st : Statement}
    {fault : Fault} (h : p.objection? o st = some fault) :
    (∃ m, st = .message m ∧ fault = .repeatedMessage m.id)
      ∨ ∃ s, st = .signal s
        ∧ (fault = .emptyRange s.name s.minimum s.maximum
          ∨ ∃ id, fault = .repeatedSignal id s.name) := by
  cases st with
  | blank => exact absurd h (by simp [objection?])
  | other => exact absurd h (by simp [objection?])
  | message m => exact .inl ⟨m, rfl, (objection?_message_iff.1 h).2.2⟩
  | signal s =>
    refine .inr ⟨s, rfl, ?_⟩
    unfold objection? at h
    dsimp only at h
    split at h
    · exact .inl (Option.some.inj h).symm
    · obtain ⟨⟨id, m⟩, -, h⟩ := Option.bind_eq_some_iff.1 h
      have hfault := (Option.ite_none_right_eq_some.1 h).2
      exact .inr ⟨id, (Option.some.inj hfault).symm⟩

/-- Options without checks object to nothing. -/
theorem objection?_eq_none {o : Options} (hm : o.rejectRepeatedMessages = false)
    (hs : o.rejectRepeatedSignals = false) (hr : o.checkRanges = false)
    (p : Progress) (st : Statement) : p.objection? o st = none := by
  cases st with
  | blank => rfl
  | other => rfl
  | message m =>
    unfold objection?
    rw [hm]
    rfl
  | signal s =>
    unfold objection?
    rw [hs, hr]
    cases p.currentMessage? <;> rfl

/-- A signal goes to the message that is being defined. -/
theorem accept_signal {p : Progress} {id : UInt32} (h : p.current = some id)
    (s : Signal) :
    p.accept (.signal s)
      = { p with catalog := p.catalog.modify id fun m => m.put s.name s } := by
  simp only [accept, h]

/-! ## Coherence -/

/-- **A progress in which everything is where it belongs.** -/
structure Coherent (p : Progress) : Prop where
  /-- A message is stored under the identifier it carries. -/
  id_eq : ∀ id m, p.catalog.get? id = some m → m.id = id
  /-- The message that is being defined is in the catalogue. -/
  current_mem : ∀ id, p.current = some id → ∃ m, p.catalog.get? id = some m

theorem coherent_start : start.Coherent where
  id_eq id m h := absurd h (by simp [start])
  current_mem id h := absurd h (by simp [start])

theorem Coherent.advance {p : Progress} (h : p.Coherent) :
    p.advance.Coherent := ⟨h.id_eq, h.current_mem⟩

/-- **No statement makes a progress incoherent.** -/
theorem Coherent.accept {p : Progress} (h : p.Coherent) (st : Statement) :
    (p.accept st).Coherent := by
  cases st with
  | blank =>
    exact ⟨h.id_eq, fun id hid =>
      absurd hid (by simp [Progress.accept, close])⟩
  | other => exact h
  | message m =>
    constructor
    · intro id m' hm'
      rw [Progress.accept, Catalog.get?_insert] at hm'
      split at hm'
      · next hid =>
        obtain rfl := Option.some.inj hm'
        exact hid
      · exact h.id_eq id m' hm'
    · intro id hid
      obtain rfl := Option.some.inj hid
      exact ⟨m, by rw [Progress.accept, Catalog.get?_insert, if_pos rfl]⟩
  | signal s =>
    cases hcur : p.current with
    | none =>
      rw [Progress.accept, hcur]
      exact h
    | some id =>
      obtain ⟨m, hm⟩ := h.current_mem id hcur
      rw [accept_signal hcur]
      constructor
      · intro id' m' hm'
        rw [Catalog.get?_modify, hm] at hm'
        split at hm'
        · next hid =>
          obtain rfl := Option.some.inj hm'
          exact (h.id_eq id m hm).trans hid
        · exact h.id_eq id' m' hm'
      · intro id' hid'
        obtain rfl := Option.some.inj (hcur.symm.trans hid')
        exact ⟨m.put s.name s, by rw [Catalog.get?_modify, if_pos rfl, hm]; rfl⟩

/-- The message that is being defined, in a coherent progress. -/
theorem Coherent.currentMessage? {p : Progress} (h : p.Coherent) {id : UInt32}
    (hid : p.current = some id) :
    ∃ m, p.catalog.get? id = some m ∧ m.id = id
      ∧ p.currentMessage? = some (id, m) := by
  obtain ⟨m, hm⟩ := h.current_mem id hid
  refine ⟨m, hm, h.id_eq id m hm, ?_⟩
  unfold Progress.currentMessage?
  rw [hid, Option.bind_some, hm]
  rfl

/-- **A statement is refused if the options object, and accepted otherwise.** What
is refused leaves no record. A signal is meant to be one that stands where a message
is being defined. -/
theorem Coherent.apply_eq {p : Progress} (h : p.Coherent) (o : Options)
    (line : List Char) (st : Statement)
    (hopen : ∀ s, st = .signal s → p.current.isSome = true) :
    p.apply o line st
      = match p.objection? o st with
        | some fault => ⟨.error fault, []⟩
        | none => ⟨.ok (p.accept st), p.records line st⟩ := by
  cases st with
  | blank => rfl
  | other => rfl
  | message m =>
    simp only [Progress.apply, openMessage, objection?, records,
      Progress.accept]
    by_cases hc : p.catalog.contains m.id = true
    · rw [if_pos hc, if_pos hc, hc, Bool.and_true]
      cases o.rejectRepeatedMessages <;> rfl
    · rw [if_neg hc, if_neg hc, Bool.eq_false_iff.2 hc, Bool.and_false]
      rfl
  | signal s =>
    obtain ⟨id, hid⟩ := Option.isSome_iff_exists.1 (hopen s rfl)
    obtain ⟨m, hm, hmid, hcur⟩ := h.currentMessage? hid
    rw [accept_signal hid]
    simp only [Progress.apply, addSignal, objection?, records, hcur, hmid,
      Option.bind_some]
    by_cases hrange : (o.checkRanges && s.minimum.above s.maximum) = true
    · rw [if_pos hrange, if_pos hrange]
    · rw [if_neg hrange, if_neg hrange]
      by_cases hc : m.signals.contains s.name = true
      · rw [if_pos hc, if_pos hc, hc, Bool.and_true]
        cases o.rejectRepeatedSignals <;> rfl
      · rw [if_neg hc, if_neg hc, Bool.eq_false_iff.2 hc, Bool.and_false]
        rfl

end Progress

end CanCatalog
