import CanCatalog.Number
import CanCatalog.Text.Quoted

/-!
# What can be wrong with a catalogue text

Reading stops at the first thing that is wrong, and says what it is and in
which line. A fault is a cause; its wording is one function of the cause, and
what a cause quotes from the text it holds unchanged.

Lines and words are quoted with escapes when they are put into a message, since
a word that is no number may be anything. The name of a signal stands between
single quotes as it is: it is one word, so it cannot break the line.

A source of bytes can fail as well, and that failure belongs to no line.
-/

namespace CanCatalog

/-- Why a word is no position of bits. -/
inductive BitFieldFault where
  /-- Nothing divides the word in two. -/
  | noSeparator
  /-- What should be the position is no number of 16 bits. -/
  | endBit
  /-- What should be the length is no number of 16 bits. -/
  | length
  /-- The length is zero. -/
  | empty
deriving DecidableEq, Repr

/-- The wording of a reason. -/
def BitFieldFault.reason : BitFieldFault → String
  | noSeparator => "missing '@' or '|' separator"
  | endBit => "end bit is not an integer"
  | length => "length is not an integer"
  | empty => "length must be positive"

/-- **What is wrong with a line.** -/
inductive Fault where
  /-- A signal is defined where no message is open. -/
  | strayLine (content : String)
  /-- A definition has too few words. -/
  | tooShort (expected found : Nat) (content : String)
  /-- A word, or a part of one, should be a number. -/
  | notANumber (token : String)
  /-- A word should be a position of bits. -/
  | badBitField (token : String) (why : BitFieldFault)
  /-- The identifier of a message is defined already. -/
  | repeatedMessage (id : UInt32)
  /-- The name of a signal is defined already in its message. -/
  | repeatedSignal (id : UInt32) (name : String)
  /-- The least value of a signal is above its largest one. -/
  | emptyRange (name : String) (minimum maximum : Number)
deriving DecidableEq

/-- The text of a number as a string. -/
def Number.toText (n : Number) : String := String.ofList n.text

/-- The wording of a fault. -/
def Fault.message : Fault → String
  | strayLine content =>
    "signal definition outside of any message: " ++ Text.quotedString content
  | tooShort expected found content =>
    "expected at least " ++ toString expected ++ " fields, found "
      ++ toString found ++ ": " ++ Text.quotedString content
  | notANumber token => "invalid numeric literal " ++ Text.quotedString token
  | badBitField token why =>
    "invalid bit field " ++ Text.quotedString token ++ ": " ++ why.reason
  | repeatedMessage id => "duplicate message ID " ++ toString id.toNat
  | repeatedSignal id name =>
    "duplicate signal '" ++ name ++ "' in message " ++ toString id.toNat
  | emptyRange name minimum maximum =>
    "signal '" ++ name ++ "' has minimum " ++ minimum.toText
      ++ " greater than maximum " ++ maximum.toText

/-- **How a source of bytes fails.** -/
inductive SourceFault where
  /-- A line that should be UTF-8 is not. -/
  | notUtf8
  /-- The source reports a failure of its own, in its own words. -/
  | broken (report : String)
deriving DecidableEq

/-- The wording of a failure. -/
def SourceFault.message : SourceFault → String
  | notUtf8 => "stream did not contain valid UTF-8"
  | broken report => report

/-- **Why a catalogue could not be read.** Lines are counted from one. -/
inductive ReadError where
  /-- A line is faulty. -/
  | atLine (line : Nat) (fault : Fault)
  /-- The source failed. -/
  | inSource (fault : SourceFault)
deriving DecidableEq

namespace ReadError

/-- The line where reading stopped, if a line was the cause. -/
def line? : ReadError → Option Nat
  | atLine n _ => some n
  | inSource _ => none

/-- **The message of an error.** -/
def message : ReadError → String
  | atLine n fault => "line " ++ toString n ++ ": " ++ fault.message
  | inSource fault => "IO error: " ++ fault.message

end ReadError

end CanCatalog
