import CanCatalog.Proofs.Reading.Invariant

/-!
# What is recorded on the way

A reading leaves records, and most of them are about one line. These come from
the line when it is taken in, so a line that is refused leaves none
(`Progress.Coherent.log_of_step_error`), and they come in the order of the lines.
In particular, when a reading ends with the fault of a line, all its records are
about lines before that one.

Which records a line leaves depends on what it states and on what has been read,
but not on the options: these only say whether it is taken in
(`Progress.Coherent.step_eq`).
-/

namespace CanCatalog

/-- **The line that a record is about**, if it is about one. -/
def Event.line? : Event → Option Nat
  | skipped n _ => some n
  | messageReplaced n _ => some n
  | messageOpened n _ _ => some n
  | signalReplaced n _ _ => some n
  | openingFile _ | takenAsLatin1 _ | started | finished .. => none

namespace Progress

/-- What is recorded of a line is about that line. -/
theorem line?_of_mem_records {p : Progress} {line : List Char} {st : Statement}
    {r : Event} (h : r ∈ p.records line st) : r.line? = some p.lines := by
  cases st with
  | blank => exact absurd h List.not_mem_nil
  | other =>
    rw [List.mem_singleton.1 h]
    rfl
  | message m =>
    dsimp only [records] at h
    split at h
    · rcases List.mem_cons.1 h with rfl | h
      · rfl
      · rw [List.mem_singleton.1 h]
        rfl
    · rw [List.mem_singleton.1 h]
      rfl
  | signal s =>
    dsimp only [records] at h
    split at h
    · split at h
      · rw [List.mem_singleton.1 h]
        rfl
      · exact absurd h List.not_mem_nil
    · exact absurd h List.not_mem_nil

/-- **A step, with what is recorded of it**, in a coherent progress. -/
theorem Coherent.step_eq {p : Progress} (h : p.Coherent) (o : Options)
    (line : List Char) :
    p.step o line
      = match Statement.ofLine p.current.isSome (p.seen line) with
        | .error fault => ⟨.error (.atLine (p.lines + 1) fault), []⟩
        | .ok st =>
          match p.objection? o st with
          | some fault => ⟨.error (.atLine (p.lines + 1) fault), []⟩
          | none =>
            ⟨.ok (p.advance.accept st), p.advance.records (p.seen line) st⟩ := by
  cases hst : Statement.ofLine p.current.isSome (p.seen line) with
  | error fault => exact step_of_error o hst
  | ok st =>
    rw [step_of_ok o hst, h.apply_ofLine o hst]
    dsimp only
    cases p.objection? o st <;> rfl

/-- The records of a line that is taken in are those of what it states. -/
theorem Coherent.log_step {p : Progress} (h : p.Coherent) {o : Options}
    {line : List Char} {st : Statement}
    (hst : Statement.ofLine p.current.isSome (p.seen line) = .ok st)
    (hobj : p.objection? o st = none) :
    (p.step o line).log = p.advance.records (p.seen line) st := by
  rw [h.step_eq, hst]
  dsimp only
  rw [hobj]

/-- **What a step leaves that succeeds**: the progress behind its line, and the
records of what the line states. -/
theorem Coherent.of_step {p q : Progress} (h : p.Coherent) {o : Options}
    {line : List Char} (hstep : (p.step o line).outcome = .ok q) :
    q.Coherent ∧ q.lines = p.lines + 1
      ∧ ∃ st, (p.step o line).log = p.advance.records (p.seen line) st := by
  have hread := hstep
  rw [outcome_step] at hread
  refine ⟨h.of_readLine hread, h.lines_of_readLine hread, ?_⟩
  obtain ⟨st, hst, hobj, -⟩ := h.readLine_eq_ok_iff.1 hread
  exact ⟨st, h.log_step hst hobj⟩

/-- **A line that is refused leaves no record**, whatever it is refused for. -/
theorem Coherent.log_of_step_error {p : Progress} (h : p.Coherent) {o : Options}
    {line : List Char} {e : ReadError}
    (hstep : (p.step o line).outcome = .error e) : (p.step o line).log = [] := by
  rw [h.step_eq] at hstep ⊢
  cases hst : Statement.ofLine p.current.isSome (p.seen line) with
  | error fault => rfl
  | ok st =>
    rw [hst] at hstep
    dsimp only at hstep ⊢
    cases hobj : p.objection? o st with
    | some fault => rfl
    | none =>
      rw [hobj] at hstep
      exact absurd hstep nofun

end Progress

namespace Reading

/-- **The records of a reading** are records of lines, and one of its end. -/
theorem forall_mem_log_readOn {o : Options} {motive : Event → Prop}
    (line : ∀ (p : Progress) line st, ∀ r ∈ p.records line st, motive r)
    (ending : ∀ messages signals lines,
      motive (.finished messages signals lines)) (entries : List Entry) :
    ∀ {p : Progress}, p.Coherent →
      ∀ r ∈ (readOn o p entries).log, motive r := by
  induction entries with
  | nil =>
    intro p _ r hr
    rw [List.mem_singleton.1 hr]
    exact ending _ _ _
  | cons entry entries ih =>
    intro p hp r hr
    cases entry with
    | error fault => exact absurd hr List.not_mem_nil
    | ok first =>
      cases hstep : (p.step o first).outcome with
      | error e =>
        rw [readOn_of_error hstep, hp.log_of_step_error hstep] at hr
        exact absurd hr List.not_mem_nil
      | ok q =>
        obtain ⟨hq, -, st, hlog⟩ := hp.of_step hstep
        rw [readOn_of_ok hstep, hlog] at hr
        rcases List.mem_append.1 hr with hr | hr
        · exact line _ _ st r hr
        · exact ih hq r hr

/-- **Records are about lines before the line of an error.** -/
theorem lt_of_mem_log_readOn {o : Options} {e : ReadError} {n : Nat}
    (hn : e.line? = some n) (entries : List Entry) :
    ∀ {p : Progress}, p.Coherent → (readOn o p entries).outcome = .error e →
      p.lines < n ∧ ∀ r ∈ (readOn o p entries).log, ∀ k,
        r.line? = some k → k < n := by
  induction entries with
  | nil => exact fun _ h => absurd h (by simp [readOn, finish])
  | cons entry entries ih =>
    intro p hp h
    cases entry with
    | error fault =>
      obtain rfl := Except.error.inj h
      exact absurd hn (by simp [ReadError.line?])
    | ok first =>
      cases hstep : (p.step o first).outcome with
      | error e' =>
        rw [readOn_of_error hstep] at h ⊢
        obtain rfl := Except.error.inj h
        rw [hp.log_of_step_error hstep]
        rw [Progress.outcome_step] at hstep
        obtain ⟨fault, rfl, -⟩ := hp.readLine_eq_error_iff.1 hstep
        obtain rfl := Option.some.inj hn
        exact ⟨Nat.lt_succ_self _, fun r hr => absurd hr List.not_mem_nil⟩
      | ok q =>
        obtain ⟨hq, hlines, st, hrecords⟩ := hp.of_step hstep
        rw [readOn_of_ok hstep] at h ⊢
        obtain ⟨hlt, hlog⟩ := ih hq h
        rw [hlines] at hlt
        refine ⟨Nat.lt_of_succ_lt hlt, fun r hr k hk => ?_⟩
        rw [hrecords] at hr
        rcases List.mem_append.1 hr with hr | hr
        · rw [Progress.line?_of_mem_records hr] at hk
          obtain rfl := Option.some.inj hk
          exact hlt
        · exact hlog r hr k hk

end Reading

end CanCatalog
