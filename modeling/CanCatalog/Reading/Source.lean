import CanCatalog.Reading.Run
import CanCatalog.Text.Lines
import CanCatalog.Text.Utf8

/-!
# Where the lines come from

A text in memory has all its lines. A stream delivers bytes, and each line has
to be decoded when its turn comes; a stream may also break off, and then a line
that was not ended is not read. A file is read whole before its encoding is
decided. All of these are sequences of entries, and so they share one reading.

A byte order mark is no concern of a source. It is a character like others,
until the first line is read.
-/

namespace CanCatalog

namespace Reading

/-- **Reads a text.** -/
def ofText (o : Options) (text : List Char) : Run :=
  ofEntries o ((Text.Lines.ofChars text).toList.map .ok)

/-- A line of a stream, which has to be UTF-8. -/
def decodedLine (bytes : List UInt8) : Entry :=
  match Text.Utf8.decode bytes with
  | some line => .ok line
  | none => .error .notUtf8

/-- **Reads a stream of bytes.** A line that is not UTF-8 is a failure only
when its turn comes. -/
def ofStream (o : Options) (bytes : List UInt8) : Run :=
  ofEntries o ((Text.Lines.ofBytes bytes).toList.map decodedLine)

/-- **Reads a stream that breaks off.** The lines that were ended are read, and
then the failure is met; what stands behind the last of them is lost. -/
def ofBrokenStream (o : Options) (bytes : List UInt8) (report : String) : Run :=
  ofEntries o
    ((Text.Lines.ofBytes bytes).ended.map decodedLine
      ++ [.error (.broken report)])

/-- The text of a file: UTF-8 if the whole of it is, Latin-1 otherwise. -/
def decodedFile (label : String) (bytes : List UInt8) :
    List Char × List Event :=
  match Text.Utf8.decode bytes with
  | some text => (text, [])
  | none => (Text.latin1 bytes, [.takenAsLatin1 label])

/-- **Reads a file**, given its contents or the report of why there are
none. -/
def ofFile (o : Options) (label : String)
    (contents : Except String (List UInt8)) : Run :=
  let run : Run := match contents with
    | .error report => ⟨.error (.inSource (.broken report)), []⟩
    | .ok bytes =>
      let (text, events) := decodedFile label bytes
      (ofText o text).after events
  run.after [.openingFile label]

end Reading

end CanCatalog
