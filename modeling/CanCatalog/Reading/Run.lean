import CanCatalog.Catalog.Query
import CanCatalog.Reading.Progress

/-!
# Reading to the end

A source is a sequence of entries, each of them a line or the failure to have
one. It is read until a line is refused, the source fails, or the end is
reached: there is a whole catalogue or none. Only at the end are the messages
that nobody asked for dropped, so that what is asked for has no influence on
what is accepted.
-/

namespace CanCatalog

/-- **The result of a reading**: a catalogue or an error, and what was recorded
on the way. -/
structure Run where
  /-- The catalogue, or why there is none. -/
  outcome : Except ReadError Catalog
  /-- The records in order. -/
  log : List Event

/-- The run with records before its own. -/
def Run.after (events : List Event) (run : Run) : Run :=
  { run with log := events ++ run.log }

/-- An entry of a source: a line, or the failure to have one. -/
abbrev Entry := Except SourceFault (List Char)

namespace Reading

/-- **The end of a reading**: the messages that are of interest are kept. -/
def finish (o : Options) (p : Progress) : Run :=
  let catalog := p.catalog.restrict o.keeps
  let extent := catalog.extent
  ⟨.ok catalog, [.finished extent.messages extent.signals p.lines]⟩

/-- Reads on from where a reading stands. -/
def readOn (o : Options) (p : Progress) : List Entry → Run
  | [] => finish o p
  | .error fault :: _ => ⟨.error (.inSource fault), []⟩
  | .ok line :: rest =>
    let effect := p.step o line
    match effect.outcome with
    | .error e => ⟨.error e, effect.log⟩
    | .ok next => (readOn o next rest).after effect.log

section

variable {o : Options} {p : Progress} {line : List Char}

/-- Behind a line that is read, the reading goes on. -/
theorem readOn_of_ok {next : Progress} (h : (p.step o line).outcome = .ok next)
    (rest : List Entry) :
    readOn o p (.ok line :: rest)
      = (readOn o next rest).after (p.step o line).log := by
  simp only [readOn, h]

/-- At a line that is refused, the reading ends. -/
theorem readOn_of_error {e : ReadError} (h : (p.step o line).outcome = .error e)
    (rest : List Entry) :
    readOn o p (.ok line :: rest) = ⟨.error e, (p.step o line).log⟩ := by
  simp only [readOn, h]

end

/-- Reads a source from its beginning. -/
def ofEntries (o : Options) (entries : List Entry) : Run :=
  (readOn o .start entries).after [.started]

end Reading

end CanCatalog
