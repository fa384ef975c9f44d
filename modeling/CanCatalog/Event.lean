import CanCatalog.Text.Quoted

/-!
# The log of a reading

A reading leaves a record of what it did: where it began, which messages it
opened, what it skipped, and where a definition replaced another one. A record
is made of what happened; its level and its wording are functions of that.

A line that is quoted in a record is escaped. Names are single words and are
written as they are. How a file is named is for its owner to say, so a record
about a file holds a label to be printed as it stands.
-/

namespace CanCatalog

/-- How much a record matters. -/
inductive Level where
  /-- Something that may have to be looked into. -/
  | warn
  /-- The course of a reading. -/
  | info
  /-- What was found. -/
  | debug
  /-- What was passed over. -/
  | trace
deriving DecidableEq, Repr

/-- The name of a level. -/
def Level.name : Level → String
  | warn => "WARN"
  | info => "INFO"
  | debug => "DEBUG"
  | trace => "TRACE"

/-- **What a reading records.** -/
inductive Event where
  /-- A file is about to be read. -/
  | openingFile (label : String)
  /-- A file is not UTF-8 and is taken to be Latin-1. -/
  | takenAsLatin1 (label : String)
  /-- A text is about to be read. -/
  | started
  /-- A line that defines nothing. -/
  | skipped (line : Nat) (content : String)
  /-- A message takes the place of an earlier one. -/
  | messageReplaced (line : Nat) (id : UInt32)
  /-- A message is opened. -/
  | messageOpened (line : Nat) (id : UInt32) (genus : String)
  /-- A signal takes the place of an earlier one of its message. -/
  | signalReplaced (line : Nat) (id : UInt32) (name : String)
  /-- The text has been read to its end. -/
  | finished (messages signals lines : Nat)
deriving DecidableEq

namespace Event

/-- The level of a record. -/
def level : Event → Level
  | takenAsLatin1 _ | messageReplaced .. | signalReplaced .. => .warn
  | openingFile _ | started | finished .. => .info
  | messageOpened .. => .debug
  | skipped .. => .trace

/-- The wording of a record. -/
def text : Event → String
  | openingFile label => "Parsing DBC file: " ++ label
  | takenAsLatin1 label =>
    "DBC file " ++ label ++ " is not UTF-8, trying Latin-1 encoding"
  | started => "Building signal database from DBC text"
  | skipped line content =>
    "Skipping line " ++ toString line ++ ": " ++ Text.quotedString content
  | messageReplaced line id =>
    "Line " ++ toString line ++ ": message " ++ toString id.toNat
      ++ " redefined, replacing earlier definition"
  | messageOpened line id genus =>
    "Line " ++ toString line ++ ": message " ++ toString id.toNat
      ++ " (" ++ genus ++ ")"
  | signalReplaced line id name =>
    "Line " ++ toString line ++ ": signal '" ++ name
      ++ "' redefined in message " ++ toString id.toNat
  | finished messages signals lines =>
    "Parsed " ++ toString messages ++ " messages with " ++ toString signals
      ++ " signals from " ++ toString lines ++ " lines"

/-- **A record as it is printed**: its level and its wording. -/
def render (e : Event) : String := e.level.name ++ " " ++ e.text

end Event

end CanCatalog
