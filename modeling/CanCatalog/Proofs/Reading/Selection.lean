import CanCatalog.Proofs.Reading.Lines

/-!
# Selecting messages

A list of identifiers can be given, and then only the messages under these are
kept. When this is done decides what it means. A reading that dropped messages
on the way would read other texts: a signal would lose the message it belongs
to, a fault in a message of no interest would go unnoticed, and an identifier
could be defined twice. Here nothing is dropped before the end. No line is read
differently because of a selection, so the selection is a restriction of the
catalogue that would have been read without it – and nothing else, an error
being the same with it and without it.
-/

namespace CanCatalog

/-- **The options without a selection**: everything is kept. -/
def Options.keepingAll (o : Options) : Options := { o with onlyIds := none }

/-- Without a selection everything is kept. -/
theorem Catalog.restrict_keeps {o : Options} (h : o.onlyIds = none)
    (c : Catalog) : c.restrict o.keeps = c := by
  refine Catalog.ext_get? fun id => ?_
  have hkeeps : o.keeps id = true := (o.keeps_iff id).2 (by simp [h])
  rw [get?_restrict_eq_ite, if_pos hkeeps]

/-- **No line is read differently because of a selection.** -/
theorem Progress.step_keepingAll (o : Options) (p : Progress)
    (line : List Char) : p.step o.keepingAll line = p.step o line := rfl

namespace Reading

/-- **A selection restricts what a reading ends with**, from wherever it goes
on. -/
theorem outcome_readOn_eq (o : Options) (entries : List Entry) (p : Progress) :
    (readOn o p entries).outcome
      = (readOn o.keepingAll p entries).outcome.map
        fun c => c.restrict o.keeps := by
  induction entries generalizing p with
  | nil =>
    show Except.ok _ = Except.ok _
    rw [Catalog.restrict_keeps (o := o.keepingAll) rfl]
  | cons entry rest ih =>
    cases entry with
    | error fault => rfl
    | ok line =>
      cases hstep : (p.step o line).outcome with
      | error e =>
        have hall := hstep
        rw [← Progress.step_keepingAll] at hall
        rw [readOn_of_error hstep, readOn_of_error hall]
        rfl
      | ok q =>
        have hall := hstep
        rw [← Progress.step_keepingAll] at hall
        rw [readOn_of_ok hstep, readOn_of_ok hall]
        exact ih q

/-- A selection restricts what a text is read to. -/
theorem outcome_ofText_keepingOnly (o : Options) (ids : List UInt32)
    (text : List Char) :
    (ofText (o.keepingOnly ids) text).outcome
      = (ofText o.keepingAll text).outcome.map
        fun c => c.restrict (o.keepingOnly ids).keeps :=
  outcome_readOn_eq (o.keepingOnly ids) _ .start

/-- **A selection is a restriction and nothing else.** A text that has an error
without a selection has the same error with any; a text that is read to a
catalogue is read to its restriction, where the messages under the listed
identifiers are what they were and no others are left. The order of the list
does not matter, and neither do its repetitions. -/
theorem selection_restricts (o : Options) (ids : List UInt32)
    (text : List Char) :
    (∀ e, (ofText (o.keepingOnly ids) text).outcome = .error e
        ↔ (ofText o.keepingAll text).outcome = .error e)
    ∧ (∀ c, (ofText o.keepingAll text).outcome = .ok c →
        ∃ d, (ofText (o.keepingOnly ids) text).outcome = .ok d
          ∧ (∀ id ∈ ids, d.get? id = c.get? id)
          ∧ ∀ id, id ∉ ids → d.get? id = none)
    ∧ ∀ ids', (∀ id, id ∈ ids ↔ id ∈ ids') →
        (ofText (o.keepingOnly ids) text).outcome
          = (ofText (o.keepingOnly ids') text).outcome := by
  have hget : ∀ (c : Catalog) (id : UInt32),
      (c.restrict (o.keepingOnly ids).keeps).get? id
        = if id ∈ ids then c.get? id else none := by
    intro c id
    rw [Catalog.get?_restrict_eq_ite, Options.keeps_keepingOnly]
    exact if_congr decide_eq_true_iff rfl rfl
  refine ⟨fun e => ?_, fun c hc => ?_, fun ids' hsame => ?_⟩
  · rw [outcome_ofText_keepingOnly, Except.map_eq_error_iff]
  · refine ⟨c.restrict (o.keepingOnly ids).keeps, ?_, ?_, ?_⟩
    · rw [outcome_ofText_keepingOnly, hc]
      rfl
    · intro id hid
      rw [hget, if_pos hid]
    · intro id hid
      rw [hget, if_neg hid]
  · have hkeeps : (o.keepingOnly ids).keeps = (o.keepingOnly ids').keeps := by
      funext id
      rw [Options.keeps_keepingOnly, Options.keeps_keepingOnly]
      exact decide_eq_decide.2 (hsame id)
    rw [outcome_ofText_keepingOnly, hkeeps, ← outcome_ofText_keepingOnly]

end Reading

end CanCatalog
