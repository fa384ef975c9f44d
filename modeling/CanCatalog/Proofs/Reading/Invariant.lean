import CanCatalog.Proofs.Reading.Lines
import CanCatalog.Proofs.Statement.Fields

/-!
# What holds throughout a reading

Whatever lines a reading meets, after each of them the catalogue is in order: a
message is under its identifier and a signal under its name, both are as a line
can define them, and a message that is being defined is there. These facts
need each other. A signal is added in place, so it must find its message; and
the fault of a repeated signal names the identifier that a message carries,
which is meant to be the one it is stored under.

They also settle what can be the reason for refusing a signal as out of place.
A signal is refused for want of a message in two places, when its line is taken
apart and when it is to be added. The second one is met by no reading: the
message that is being defined is always in the catalogue.
-/

namespace CanCatalog

open Statement (Begins States signalKeyword)

/-- **A catalogue in order**: messages under their identifiers, each of them
sound. -/
structure Catalog.Sound (c : Catalog) : Prop where
  /-- A message is stored under the identifier it carries, and is sound. -/
  messages : ∀ id m, c.get? id = some m → m.id = id ∧ m.Sound

namespace Catalog.Sound

variable {c : Catalog}

theorem empty : Catalog.empty.Sound where
  messages id m h := absurd h (by simp)

/-- **A sound message can be stored.** -/
theorem insert (h : c.Sound) {m : Message} (hm : m.Sound) :
    (c.insert m).Sound where
  messages id m' hm' := by
    rw [Catalog.get?_insert] at hm'
    split at hm'
    · next hid =>
      obtain rfl := Option.some.inj hm'
      exact ⟨hid, hm⟩
    · exact h.messages id m' hm'

/-- **A sound signal can be added** to a message in its place. -/
theorem modify_put (h : c.Sound) (id : UInt32) {s : Signal} (hs : s.Sound) :
    (c.modify id fun m => m.put s.name s).Sound where
  messages id' m' hm' := by
    rw [Catalog.get?_modify] at hm'
    split at hm'
    · next hid =>
      obtain ⟨m, hm, rfl⟩ := Option.map_eq_some_iff.1 hm'
      obtain ⟨hcarried, hsound⟩ := h.messages id m hm
      exact ⟨hcarried.trans hid, hsound.put hs⟩
    · exact h.messages id' m' hm'

/-- A selection of messages is in order if all of them are. -/
theorem restrict (h : c.Sound) (keeps : UInt32 → Bool) :
    (c.restrict keeps).Sound where
  messages id m hm := by
    rw [Catalog.get?_restrict] at hm
    exact h.messages id m (Option.filter_eq_some_iff.1 hm).1

end Catalog.Sound

namespace Progress

/-- **A progress in order**: its catalogue is, and the message that is being
defined is in it. -/
structure Sound (p : Progress) : Prop where
  /-- The catalogue is in order. -/
  catalog : p.catalog.Sound
  /-- The identifier of the message that is being defined is taken. -/
  current_mem : ∀ id, p.current = some id → p.catalog.contains id = true

theorem sound_start : start.Sound where
  catalog := .empty
  current_mem id h := absurd h (by simp [start])

theorem Sound.coherent {p : Progress} (h : p.Sound) : p.Coherent where
  id_eq id m hm := (h.catalog.messages id m hm).1
  current_mem id hid := by
    have hmem := h.current_mem id hid
    rwa [Catalog.contains_eq_isSome, Option.isSome_iff_exists] at hmem

/-- **What a line states keeps a catalogue in order.** -/
theorem sound_catalog_accept {p : Progress} (h : p.catalog.Sound)
    {st : Statement} {line : List Char} (hst : States st line) :
    (p.accept st).catalog.Sound := by
  cases st with
  | blank => exact h
  | other => exact h
  | message m => exact h.insert hst.message_sound
  | signal s =>
    unfold accept
    cases p.current with
    | none => exact h
    | some id => exact h.modify_put id hst.signal_sound

/-- **No line that is read disturbs the order.** -/
theorem Sound.of_readLine {p q : Progress} (h : p.Sound) {o : Options}
    {line : List Char} (hq : p.readLine o line = .ok q) : q.Sound := by
  have hcoh := h.coherent.of_readLine hq
  obtain ⟨st, hst, -, rfl⟩ := h.coherent.readLine_eq_ok_iff.1 hq
  refine ⟨sound_catalog_accept (p := p.advance) h.catalog
    (Statement.states_of_ofLine hst), fun id hid => ?_⟩
  rw [Catalog.contains_eq_isSome, Option.isSome_iff_exists]
  exact hcoh.current_mem id hid

/-! ## Where a reading can be -/

/-- **A progress that some lines lead to**, whatever they are. -/
inductive Reachable (o : Options) : Progress → Prop where
  /-- Nothing has been read. -/
  | start : Reachable o .start
  /-- One more line has been read. -/
  | step {p q : Progress} {line : List Char} (before : Reachable o p)
    (read : (p.step o line).outcome = .ok q) : Reachable o q

/-- **Wherever a reading can be, things are in order.** -/
theorem Reachable.sound {o : Options} {p : Progress} (h : Reachable o p) :
    p.Sound := by
  induction h with
  | start => exact sound_start
  | step _ read ih =>
    rw [outcome_step] at read
    exact ih.of_readLine read

/-! ## Signals out of place -/

/-- The options never object that a signal is out of place. -/
theorem objection?_ne_strayLine (o : Options) (p : Progress) (st : Statement)
    (content : String) : p.objection? o st ≠ some (.strayLine content) := by
  intro h
  rcases exists_of_objection? h with ⟨m, -, heq⟩ | ⟨s, -, heq | ⟨id, heq⟩⟩
  · exact absurd heq nofun
  · exact absurd heq nofun
  · exact absurd heq nofun

/-- **A signal is out of place exactly if no message is being defined**, and
nothing else about its line is looked at before. -/
theorem Sound.step_eq_strayLine_iff {p : Progress} (h : p.Sound) (o : Options)
    (line : List Char) (n : Nat) (content : String) :
    (p.step o line).outcome = .error (.atLine n (.strayLine content))
      ↔ (Begins signalKeyword (p.seen line) ∧ p.current = none)
        ∧ n = p.lines + 1 ∧ content = String.ofList (p.seen line) := by
  rw [outcome_step, h.coherent.readLine_eq_error_iff]
  constructor
  · rintro ⟨fault, heq, hfault⟩
    obtain ⟨rfl, rfl⟩ := ReadError.atLine.inj heq
    rcases hfault with hline | ⟨st, -, hobj⟩
    · obtain ⟨hbegins, hnone, hcontent⟩ :=
        Statement.ofLine_eq_strayLine_iff.1 hline
      exact ⟨⟨hbegins, Option.isNone_iff_eq_none.1
        (Option.isSome_eq_false_iff.1 hnone)⟩, rfl, hcontent⟩
    · exact absurd hobj (objection?_ne_strayLine o p st content)
  · rintro ⟨⟨hbegins, hnone⟩, rfl, rfl⟩
    refine ⟨_, rfl, .inl ?_⟩
    refine Statement.ofLine_eq_strayLine_iff.2 ⟨hbegins, ?_, rfl⟩
    rw [hnone]
    rfl

/-- **A signal that is in place has a message to go to.** -/
theorem Sound.currentMessage?_isSome {p : Progress} (h : p.Sound)
    {line : List Char} {s : Signal}
    (hs : Statement.ofLine p.current.isSome line = .ok (.signal s)) :
    p.advance.currentMessage?.isSome = true := by
  obtain ⟨hstates, hplace⟩ := Statement.ofLine_eq_ok_iff.1 hs
  obtain ⟨id, hid⟩ := Option.isSome_iff_exists.1 (hplace hstates.kind)
  obtain ⟨m, -, -, hcur⟩ := h.coherent.advance.currentMessage? hid
  rw [hcur]
  rfl

end Progress

namespace Reading

/-! ## What a reading ends with -/

/-- **A reading that goes on from an ordered progress ends with an ordered
catalogue**, if it ends with one. -/
theorem sound_of_readOn {o : Options} {entries : List Entry} {c : Catalog} :
    ∀ {p : Progress}, p.Sound → (readOn o p entries).outcome = .ok c →
      c.Sound := by
  induction entries with
  | nil =>
    intro p h hc
    obtain rfl := Except.ok.inj hc
    exact h.catalog.restrict o.keeps
  | cons entry rest ih =>
    intro p h hc
    cases entry with
    | error fault => exact absurd hc (by simp [readOn])
    | ok line =>
      cases hstep : (p.step o line).outcome with
      | error e =>
        rw [readOn_of_error hstep] at hc
        exact absurd hc (by simp)
      | ok q =>
        rw [readOn_of_ok hstep] at hc
        rw [Progress.outcome_step] at hstep
        exact ih (h.of_readLine hstep) hc

/-- Every reading from the beginning ends with an ordered catalogue. -/
theorem sound_of_ofEntries {o : Options} {entries : List Entry} {c : Catalog}
    (h : (ofEntries o entries).outcome = .ok c) : c.Sound :=
  sound_of_readOn Progress.sound_start h

/-- A file that is read has contents, which are a text. -/
theorem exists_text_of_ofFile {o : Options} {label : String}
    {contents : Except String (List UInt8)} {c : Catalog}
    (h : (ofFile o label contents).outcome = .ok c) :
    ∃ text, (ofText o text).outcome = .ok c := by
  cases contents with
  | error report => exact absurd h (by simp [ofFile, Run.after])
  | ok bytes => exact ⟨(decodedFile label bytes).1, h⟩

/-- **Everything is in its place throughout a reading.** Wherever the lines of a
reading lead, messages are stored under their identifiers and signals under
their names, what is stored is sound, and a message that is being defined is in
the catalogue. So a signal that is read in its place has a message to go to,
and a line is refused as a signal out of place in one case only: it begins as a
signal does and no message is being defined. A catalogue that any source was
read to is in order too, whatever was selected. -/
theorem in_order_throughout (o : Options) :
    (∀ p, Progress.Reachable o p →
      p.Sound
      ∧ ∀ line,
        (∀ s, Statement.ofLine p.current.isSome (p.seen line)
            = .ok (.signal s) → p.advance.currentMessage?.isSome = true)
        ∧ ((∃ n content,
              (p.step o line).outcome
                = .error (.atLine n (.strayLine content)))
            ↔ Begins signalKeyword (p.seen line) ∧ p.current = none)
        ∧ ∀ n content,
            (p.step o line).outcome
              = .error (.atLine n (.strayLine content)) →
            n = p.lines + 1 ∧ content = String.ofList (p.seen line))
    ∧ ∀ c,
      (∀ text, (ofText o text).outcome = .ok c → c.Sound)
      ∧ (∀ bytes, (ofStream o bytes).outcome = .ok c → c.Sound)
      ∧ ∀ label contents, (ofFile o label contents).outcome = .ok c →
          c.Sound := by
  constructor
  · intro p hp
    have h := hp.sound
    refine ⟨h, fun line => ⟨fun s hs => h.currentMessage?_isSome hs, ?_, ?_⟩⟩
    · simp only [h.step_eq_strayLine_iff, exists_and_left, exists_eq, and_true]
    · intro n content hstep
      exact ((h.step_eq_strayLine_iff o line n content).1 hstep).2
  · refine fun c => ⟨fun text h => sound_of_ofEntries h,
      fun bytes h => sound_of_ofEntries h, fun label contents h => ?_⟩
    obtain ⟨text, htext⟩ := exists_text_of_ofFile h
    exact sound_of_ofEntries htext

end Reading

end CanCatalog
