/-!
# Lines

A line ends with a line feed, and a carriage return before the line feed
belongs to the end and not to the line. What stands behind the last line feed
is a line as well, unless it is empty; but nothing ended it, so a carriage
return there is an ordinary character.

The distinction between the lines that were ended and the rest matters for a
source that breaks off: the rest may be half a line. So the two are kept
apart. The rule is about two symbols only, and is used on characters and on
bytes alike.
-/

namespace CanCatalog.Text

/-- **A sequence cut at its line feeds**: the lines that were ended, and what
stands behind the last of them. -/
structure Lines (α : Type) where
  /-- The lines that a line feed ended, in order. -/
  ended : List (List α)
  /-- What stands behind the last line feed. -/
  rest : List α

namespace Lines

variable {α : Type} [BEq α]

/-- A line without the carriage return at its end. -/
def withoutReturn (carriageReturn : α) (line : List α) : List α :=
  if line.getLast? == some carriageReturn then line.dropLast else line

/-- Cuts a sequence at its line feeds. -/
def cut (lineFeed carriageReturn : α) (xs : List α) : Lines α :=
  let pieces := xs.splitOnP (· == lineFeed)
  { ended := pieces.dropLast.map (withoutReturn carriageReturn)
    rest := pieces.getLastD [] }

/-- The lines of a text. -/
def ofChars (text : List Char) : Lines Char := cut '\n' '\r' text

/-- The lines of a sequence of bytes. -/
def ofBytes (bytes : List UInt8) : Lines UInt8 := cut 10 13 bytes

/-- **All lines in order**: those that were ended, and the rest unless it is
empty. -/
def toList (lines : Lines α) : List (List α) :=
  lines.ended ++ if lines.rest.isEmpty then [] else [lines.rest]

example : (ofChars ['a', '\r', '\n', 'b', '\r']).toList
    = [['a'], ['b', '\r']] := by decide
example : (ofChars ['\n', '\n']).toList = [[], []] := by decide

end Lines

end CanCatalog.Text
