import CanCatalog.Catalog.Basic
import CanCatalog.Event
import CanCatalog.Options
import CanCatalog.Statement

/-!
# The progress of a reading

A text is read line by line, and all that one line leaves for the next is a
catalogue, the identifier of the message being defined, and the count of
lines. A statement changes that in an obvious way or is refused.

A message goes into the catalogue as soon as it is opened, and its signals are
added to it there. So a message that is opened twice is not merged: the second
definition begins without signals.

Besides, things are recorded on the way. A record that has been made is not taken
back, whatever comes after it, so the records of a line stand beside its outcome
and not in it.
-/

namespace CanCatalog

/-- **What has been read so far.** -/
structure Progress where
  /-- The messages defined so far. -/
  catalog : Catalog
  /-- The identifier of the message that is being defined. -/
  current : Option UInt32
  /-- The number of lines read. -/
  lines : Nat

/-- **What comes of a line**: the progress behind it or what is wrong with it, and
the records that were made. -/
structure Effect (ε : Type) where
  /-- The progress, or why there is none. -/
  outcome : Except ε Progress
  /-- The records in order. -/
  log : List Event

namespace Effect

variable {ε : Type}

/-- The effect with a record made before it. -/
def after (event : Event) (effect : Effect ε) : Effect ε :=
  { effect with log := event :: effect.log }

/-- The effect of a statement as one of its line, which a fault names. -/
def atLine (line : Nat) (effect : Effect Fault) : Effect ReadError :=
  { effect with outcome := effect.outcome.mapError (.atLine line) }

end Effect

namespace Progress

/-- Before the first line. -/
def start : Progress := ⟨Catalog.empty, none, 0⟩

/-- One more line has been read. -/
def advance (p : Progress) : Progress := { p with lines := p.lines + 1 }

/-- A blank line ends the message that is being defined. -/
def close (p : Progress) : Progress := { p with current := none }

/-- **A message is opened.** If its identifier is taken, that is a fault or
worth a warning, depending on the options. -/
def openMessage (o : Options) (p : Progress) (m : Message) : Effect Fault :=
  let next := { p with catalog := p.catalog.insert m, current := some m.id }
  let opened : Effect Fault :=
    ⟨.ok next, [.messageOpened p.lines m.id m.genus]⟩
  if p.catalog.contains m.id then
    if o.rejectRepeatedMessages then ⟨.error (.repeatedMessage m.id), []⟩
    else opened.after (.messageReplaced p.lines m.id)
  else opened

/-- **A signal is added** to a message. An empty range is reported before a
repeated name. -/
def addSignal (o : Options) (p : Progress) (id : UInt32) (m : Message)
    (s : Signal) : Effect Fault :=
  let next := { p with catalog := p.catalog.modify id fun m => m.put s.name s }
  let added : Effect Fault := ⟨.ok next, []⟩
  if o.checkRanges && s.minimum.above s.maximum then
    ⟨.error (.emptyRange s.name s.minimum s.maximum), []⟩
  else if m.signals.contains s.name then
    if o.rejectRepeatedSignals then ⟨.error (.repeatedSignal m.id s.name), []⟩
    else added.after (.signalReplaced p.lines m.id s.name)
  else added

/-- The message that is being defined, with its identifier. -/
def currentMessage? (p : Progress) : Option (UInt32 × Message) :=
  p.current.bind fun id => (p.catalog.get? id).map fun m => (id, m)

/-- **What a statement does.** A signal is read only while a message is being
defined, and that message is in the catalogue; so the last case, in which it
is not, is met by no reading. -/
def apply (o : Options) (p : Progress) (line : List Char) :
    Statement → Effect Fault
  | .blank => ⟨.ok p.close, []⟩
  | .other => ⟨.ok p, [.skipped p.lines (String.ofList line)]⟩
  | .message m => p.openMessage o m
  | .signal s =>
    match p.currentMessage? with
    | some (id, m) => p.addSignal o id m s
    | none => ⟨.error (.strayLine (String.ofList line)), []⟩

end Progress

/-- A byte order mark, which some editors put at the front of a text. -/
def byteOrderMark : Char := '\uFEFF'

/-- A line without a byte order mark. -/
def withoutMark (line : List Char) : List Char :=
  if line.head? = some byteOrderMark then line.tail else line

/-- **Reads one line.** Only the first may begin with a byte order mark. -/
def Progress.step (o : Options) (p : Progress) (line : List Char) :
    Effect ReadError :=
  let line := if p.lines = 0 then withoutMark line else line
  let p := p.advance
  let effect : Effect Fault :=
    match Statement.ofLine p.current.isSome line with
    | .error fault => ⟨.error fault, []⟩
    | .ok statement => p.apply o line statement
  effect.atLine p.lines

end CanCatalog
