import CanCatalog.Proofs.Reading.Records

/-!
# Replacements and rejections

What is defined twice is either replaced, and a warning is recorded, or
rejected. These are two branches in two places, for messages and for signals,
and the warning would be of little use if it were not just where the rejection
would be: it could not be used to find out whether a text has repetitions
without rejecting it.

It is. A reading that rejects repetitions is the reading that accepts them,
stopped at its first warning (`Run.stopped`), with the records it had left until
then. That this is one equation of runs rests on the order of things within a
line. A warning is the first record of its line, so the reading that stops there
has not recorded part of the line already. And whatever else a line can be
refused for is looked at before the warning: such a line leaves no record, and
both readings refuse it for the same reason.
-/

namespace CanCatalog

/-- **The options with repetitions rejected or accepted**, of identifiers and of
names alike. The check of ranges and the selection are the same. -/
def Options.rejecting (o : Options) (reject : Bool) : Options :=
  (o.rejectingMessages reject).rejectingSignals reject

/-- **The error that a replacement would be**, where repetitions are rejected.
Other records tell of no replacement. -/
def Event.rejection? : Event → Option ReadError
  | messageReplaced n id => some (.atLine n (.repeatedMessage id))
  | signalReplaced n id name => some (.atLine n (.repeatedSignal id name))
  | openingFile _ | takenAsLatin1 _ | started => none
  | skipped .. | messageOpened .. | finished .. => none

namespace Run

/-- **A run stopped at its first replacement**, which becomes an error. What was
recorded before remains. -/
def stopped (run : Run) : Run :=
  match run.log.findSome? Event.rejection? with
  | none => run
  | some e => ⟨.error e, run.log.takeWhile fun r => r.rejection?.isNone⟩

/-- A run without replacements is not stopped. -/
theorem stopped_eq_self {run : Run}
    (h : ∀ r ∈ run.log, r.rejection? = none) : run.stopped = run := by
  unfold stopped
  rw [List.findSome?_eq_none_iff.2 h]

/-- **A run is stopped at the first replacement in its log.** -/
theorem stopped_eq {run : Run} {front back : List Event} {r : Event}
    {e : ReadError} (hlog : run.log = front ++ r :: back)
    (hfront : ∀ r ∈ front, r.rejection? = none)
    (hr : r.rejection? = some e) : run.stopped = ⟨.error e, front⟩ := by
  have hfind : run.log.findSome? Event.rejection? = some e := by
    rw [hlog, List.findSome?_append, List.findSome?_eq_none_iff.2 hfront,
      List.findSome?_cons, hr]
    rfl
  have htake : run.log.takeWhile (fun r => r.rejection?.isNone) = front := by
    rw [hlog, List.takeWhile_append_of_pos (fun r hr => by rw [hfront r hr]; rfl),
      List.takeWhile_cons_of_neg (by rw [hr]; exact Bool.false_ne_true),
      List.append_nil]
  unfold stopped
  rw [hfind, htake]

/-- A run that begins with a replacement is stopped at once. -/
theorem stopped_after_of_head? {events : List Event} {e : ReadError}
    (run : Run) (h : events.head?.bind Event.rejection? = some e) :
    (run.after events).stopped = ⟨.error e, []⟩ := by
  obtain ⟨r, hr, he⟩ := Option.bind_eq_some_iff.1 h
  obtain ⟨rest, rfl⟩ := List.head?_eq_some_iff.1 hr
  have hlog : (run.after (r :: rest)).log = [] ++ r :: (rest ++ run.log) := rfl
  exact stopped_eq hlog (fun _ hr => absurd hr List.not_mem_nil) he

/-- Records before a run that tell of no replacement do not stop it. -/
theorem stopped_after {events : List Event} (run : Run)
    (h : ∀ r ∈ events, r.rejection? = none) :
    (run.after events).stopped = run.stopped.after events := by
  unfold stopped after
  dsimp only
  rw [List.findSome?_append, List.findSome?_eq_none_iff.2 h, Option.none_or]
  cases run.log.findSome? Event.rejection? with
  | none => rfl
  | some e =>
    dsimp only
    rw [List.takeWhile_append_of_pos fun r hr => by rw [h r hr]; rfl]

end Run

namespace Progress

/-- A replacement is recorded before anything else of its line. -/
theorem rejection?_eq_none_of_head? {p : Progress} {line : List Char}
    {st : Statement}
    (h : (p.records line st).head?.bind Event.rejection? = none) :
    ∀ r ∈ p.records line st, r.rejection? = none := by
  cases st with
  | blank => exact fun r hr => absurd hr List.not_mem_nil
  | other => exact List.forall_mem_singleton.2 rfl
  | message m =>
    dsimp only [records] at h ⊢
    split at h
    · exact absurd h (Option.some_ne_none _)
    · next hc =>
      rw [if_neg hc]
      exact List.forall_mem_singleton.2 rfl
  | signal s =>
    dsimp only [records] at h ⊢
    cases hcur : p.currentMessage? with
    | none => exact fun r hr => absurd hr List.not_mem_nil
    | some current =>
      obtain ⟨id, m⟩ := current
      rw [hcur] at h
      dsimp only at h ⊢
      split at h
      · exact absurd h (Option.some_ne_none _)
      · next hc =>
        rw [if_neg hc]
        exact fun r hr => absurd hr List.not_mem_nil

/-- **Rejecting repetitions, the options object to what they objected to before,
and then to what would be replaced.** -/
theorem objection?_rejecting (o : Options) (p : Progress) (line : List Char)
    (st : Statement) :
    (p.objection? (o.rejecting true) st).map (ReadError.atLine (p.lines + 1))
      = ((p.objection? (o.rejecting false) st).map
          (ReadError.atLine (p.lines + 1))).or
        ((p.advance.records line st).head?.bind Event.rejection?) := by
  cases st with
  | blank => rfl
  | other => rfl
  | message m =>
    dsimp only [objection?, records, advance, Options.rejecting,
      Options.rejectingMessages, Options.rejectingSignals]
    cases p.catalog.contains m.id <;> rfl
  | signal s =>
    have hcurrent : p.advance.currentMessage? = p.currentMessage? := rfl
    dsimp only [objection?, records, Options.rejecting,
      Options.rejectingMessages, Options.rejectingSignals]
    rw [hcurrent]
    cases o.checkRanges && s.minimum.above s.maximum with
    | true => rfl
    | false =>
      cases p.currentMessage? with
      | none => rfl
      | some current =>
        obtain ⟨id, m⟩ := current
        dsimp only [Option.bind_some]
        cases Std.ExtTreeMap.contains m.signals s.name <;> rfl

/-- **A step that rejects repetitions is the step that accepts them, unless this
records a replacement.** -/
theorem Coherent.step_rejecting {p : Progress} (h : p.Coherent) (o : Options)
    (line : List Char) :
    p.step (o.rejecting true) line
      = match (p.step (o.rejecting false) line).log.head?.bind
            Event.rejection? with
        | some e => ⟨.error e, []⟩
        | none => p.step (o.rejecting false) line := by
  rw [h.step_eq, h.step_eq]
  cases Statement.ofLine p.current.isSome (p.seen line) with
  | error fault => rfl
  | ok st =>
    have hobj := objection?_rejecting o p (p.seen line) st
    dsimp only
    cases hfalse : p.objection? (o.rejecting false) st with
    | some fault =>
      rw [hfalse] at hobj
      obtain ⟨fault', htrue, hfault⟩ := Option.map_eq_some_iff.1 hobj
      obtain rfl := (ReadError.atLine.inj hfault).2
      rw [htrue]
      rfl
    | none =>
      rw [hfalse, Option.map_none, Option.none_or] at hobj
      dsimp only
      rw [← hobj]
      cases p.objection? (o.rejecting true) st <;> rfl

end Progress

namespace Reading

/-- **A reading that rejects repetitions is the one that accepts them, stopped
at its first replacement.** -/
theorem readOn_rejecting (o : Options) (entries : List Entry) :
    ∀ {p : Progress}, p.Coherent →
      readOn (o.rejecting true) p entries
        = (readOn (o.rejecting false) p entries).stopped := by
  induction entries with
  | nil => exact fun _ => rfl
  | cons entry entries ih =>
    intro p hp
    cases entry with
    | error fault => rfl
    | ok line =>
      have hreject := hp.step_rejecting o line
      cases hstep : (p.step (o.rejecting false) line).outcome with
      | error e =>
        -- the line is refused in any case, and nothing is recorded of it
        have hlog := hp.log_of_step_error hstep
        rw [hlog] at hreject
        have hstep' : (p.step (o.rejecting true) line).outcome = .error e := by
          rw [hreject]
          exact hstep
        rw [readOn_of_error hstep, readOn_of_error hstep',
          hp.log_of_step_error hstep', hlog]
        rfl
      | ok q =>
        obtain ⟨hq, -, st, hlog⟩ := hp.of_step hstep
        rw [readOn_of_ok hstep]
        cases hhead : (p.step (o.rejecting false) line).log.head?.bind
            Event.rejection? with
        | some e =>
          rw [hhead] at hreject
          rw [readOn_of_error (congrArg Effect.outcome hreject), hreject]
          exact (Run.stopped_after_of_head? _ hhead).symm
        | none =>
          rw [hhead] at hreject
          rw [readOn_of_ok ((congrArg Effect.outcome hreject).trans hstep),
            hreject, ih hq]
          rw [hlog] at hhead ⊢
          exact (Run.stopped_after _
            (Progress.rejection?_eq_none_of_head? hhead)).symm

/-- A text read with repetitions rejected. -/
theorem ofText_rejecting (o : Options) (text : List Char) :
    ofText (o.rejecting true) text
      = (ofText (o.rejecting false) text).stopped := by
  have hread := readOn_rejecting o
    ((Text.Lines.ofChars text).toList.map .ok) Progress.coherent_start
  show (readOn (o.rejecting true) .start _).after [.started] = _
  rw [hread]
  exact (Run.stopped_after _ (List.forall_mem_singleton.2 rfl)).symm

/-- **In the log of a text, a warning is a replacement.** -/
theorem level_eq_warn_iff {o : Options} {text : List Char} {r : Event}
    (h : r ∈ (ofText o text).log) :
    r.level = .warn ↔ ∃ e, r.rejection? = some e := by
  have hrecord : ∀ (p : Progress) line st, ∀ r ∈ p.records line st,
      r.level = .warn ↔ ∃ e, r.rejection? = some e := by
    intro p line st r hr
    have hline := Progress.line?_of_mem_records hr
    cases r <;> simp_all [Event.level, Event.rejection?, Event.line?]
  rcases List.mem_cons.1 h with rfl | h
  · simp [Event.level, Event.rejection?]
  · exact forall_mem_log_readOn hrecord
      (fun _ _ _ => by simp [Event.level, Event.rejection?]) _
      Progress.coherent_start r h

/-- **The first warning is what is rejected.** Of a text that is read with
repetitions accepted, the log has warnings or not. If it has none, the run with
repetitions rejected is the same, outcome and records. If it has some, the first
one says that a message or a signal replaces another, in a line `n`. Then the
run with repetitions rejected ends in that line, with the fault that the
identifier or the name is repeated, and its records are those before the
warning. It is the same whether the text is read to its end where repetitions
are accepted, or is refused there: that can only be in a later line. -/
theorem first_warning_is_rejected (o : Options) (text : List Char) :
    ((∀ r ∈ (ofText (o.rejecting false) text).log, r.level ≠ .warn) →
      ofText (o.rejecting true) text = ofText (o.rejecting false) text)
    ∧ ∀ front warning back,
      (ofText (o.rejecting false) text).log = front ++ warning :: back →
      (∀ r ∈ front, r.level ≠ .warn) → warning.level = .warn →
        ∃ n, ((∃ id, warning = .messageReplaced n id
            ∧ ofText (o.rejecting true) text
              = ⟨.error (.atLine n (.repeatedMessage id)), front⟩)
          ∨ ∃ id name, warning = .signalReplaced n id name
            ∧ ofText (o.rejecting true) text
              = ⟨.error (.atLine n (.repeatedSignal id name)), front⟩)
        ∧ ∀ e, (ofText (o.rejecting false) text).outcome = .error e →
          ∃ later fault, e = .atLine later fault ∧ n < later := by
  have hnone : ∀ r ∈ (ofText (o.rejecting false) text).log,
      r.level ≠ .warn → r.rejection? = none := by
    intro r hr hlevel
    rw [Option.eq_none_iff_forall_ne_some]
    exact fun e he => hlevel ((level_eq_warn_iff hr).2 ⟨e, he⟩)
  constructor
  · intro hlog
    rw [ofText_rejecting]
    exact Run.stopped_eq_self fun r hr => hnone r hr (hlog r hr)
  · intro front warning back hlog hfront hwarn
    have hmem : warning ∈ (ofText (o.rejecting false) text).log := by
      rw [hlog]
      exact List.mem_append_right _ List.mem_cons_self
    obtain ⟨e, he⟩ := (level_eq_warn_iff hmem).1 hwarn
    have hstop : ofText (o.rejecting true) text = ⟨.error e, front⟩ := by
      rw [ofText_rejecting]
      refine Run.stopped_eq hlog (fun r hr => hnone r ?_ (hfront r hr)) he
      rw [hlog]
      exact List.mem_append_left _ hr
    have hlater : ∀ n, warning.line? = some n → ∀ e,
        (ofText (o.rejecting false) text).outcome = .error e →
          ∃ later fault, e = .atLine later fault ∧ n < later := by
      intro n hn e' he'
      obtain ⟨_, _, _, _, fault, -, -, -, rfl⟩ := exists_of_readLines_eq_error
        (outcome_ofText_eq_error_iff.1 he')
      refine ⟨_, fault, rfl, ?_⟩
      rcases List.mem_cons.1 hmem with rfl | hmem
      · exact absurd hn (by simp [Event.line?])
      · exact (lt_of_mem_log_readOn rfl _ Progress.coherent_start he').2
          warning hmem n hn
    cases warning with
    | messageReplaced n id =>
      obtain rfl := Option.some.inj he
      exact ⟨n, .inl ⟨id, rfl, hstop⟩, hlater n rfl⟩
    | signalReplaced n id name =>
      obtain rfl := Option.some.inj he
      exact ⟨n, .inr ⟨id, name, rfl, hstop⟩, hlater n rfl⟩
    | _ => exact absurd he (by simp [Event.rejection?])

end Reading

end CanCatalog
