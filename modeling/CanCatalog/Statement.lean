import CanCatalog.Catalog.Basic
import CanCatalog.Statement.Field
import CanCatalog.Text.Blank

/-!
# Statements

A line is a sequence of words, and the first word says what the line is for.
Two kinds of lines define something:

    BO_ <id> <genus>: <bytes> <family>
    SG_ <name> : <bit>|<length> (<factor>,<offset>) [<min>|<max>] <description>

A blank line ends the definition of a message. All other lines, of which the
format has many kinds, are of no concern here.

Words have fixed places and nothing is required to follow them. There is one
variation. A signal that is present in some frames only has a tag between its
name and the colon, and all places behind the tag are one further; the tag
itself is not kept. The tag is recognised only together with the colon behind
it, because without the colon the same word would stand in the colon's place.

Checks are made from left to right, and the first that fails is reported.
-/

namespace CanCatalog

/-- **What a line states.** -/
inductive Statement where
  /-- Nothing: the line is empty or white space. -/
  | blank
  /-- Something that is not looked at. -/
  | other
  /-- A new message, still without signals. -/
  | message (definition : Message)
  /-- A signal of the message that is being defined. -/
  | signal (definition : Signal)

namespace Statement

/-! ## Parts of words -/

/-- A natural number of 32 bits, or the fault that there is none. -/
def count (token : List Char) : Except Fault UInt32 :=
  match Numeral.uint32? token with
  | some n => .ok n
  | none => .error (.notANumber (String.ofList token))

/-- A word without the colon at its end, of which at most one is taken. -/
def withoutColon (token : List Char) : List Char :=
  if token.getLast? = some ':' then token.dropLast else token

/-- **The tag of a signal that is not in every frame**: `M` for the one that
selects among the others, `m<digits>` for those, and `m<digits>M` for one that
is both. -/
def isMultiplexTag : List Char → Bool
  | ['M'] => true
  | 'm' :: rest =>
    let digits := if rest.getLast? = some 'M' then rest.dropLast else rest
    !digits.isEmpty && digits.all Char.isDigit
  | _ => false

/-! ## Lines -/

/-- The word that begins the definition of a message. -/
def messageKeyword : List Char := ['B', 'O', '_']

/-- The word that begins the definition of a signal. -/
def signalKeyword : List Char := ['S', 'G', '_']

/-- The fault of a line with too few words. -/
def tooShort (expected : Nat) (line : List Char) (tokens : List (List Char)) :
    Fault :=
  .tooShort expected tokens.length (String.ofList line)

/-- The definition of a message, from its words. -/
def ofMessageWords (line : List Char) (tokens : List (List Char)) :
    Except Fault Message :=
  match tokens with
  | _ :: idWord :: genus :: bytesWord :: family :: _ => do
    let id ← count idWord
    let frameBytes ← count bytesWord
    pure (Message.empty id (String.ofList (withoutColon genus)) frameBytes
      (String.ofList family))
  | _ => .error (tooShort 5 line tokens)

/-- The definition of a signal, from its name and the words behind the
colon. -/
def ofSignalWords (name bits scale limits description : List Char) :
    Except Fault Signal := do
  let (endBit, length) ← bitField bits
  let (factor, offset) ← pair scaling scale
  let (minimum, maximum) ← pair range limits
  pure {
    name := String.ofList name
    endBit := endBit
    length := length
    factor := factor
    offset := offset
    minimum := minimum
    maximum := maximum
    description := String.ofList description
    value := none }

/-- Whether the words of a definition have a tag and its colon behind the
name. -/
def isMultiplexed : List (List Char) → Bool
  | _ :: _ :: tag :: colon :: _ => colon == [':'] && isMultiplexTag tag
  | _ => false

/-- The definition of a signal, from all words of its line. -/
def ofSignalLine (line : List Char) (tokens : List (List Char)) :
    Except Fault Signal :=
  if isMultiplexed tokens then
    match tokens with
    | _ :: name :: _ :: _ :: bits :: scale :: limits :: description :: _ =>
      ofSignalWords name bits scale limits description
    | _ => .error (tooShort 8 line tokens)
  else
    match tokens with
    | _ :: name :: _ :: bits :: scale :: limits :: description :: _ =>
      ofSignalWords name bits scale limits description
    | _ => .error (tooShort 7 line tokens)

/-- **What a line states**, given whether a message is being defined. Without
one, the definition of a signal is out of place whatever it says. -/
def ofLine (messageOpen : Bool) (line : List Char) : Except Fault Statement :=
  let tokens := Text.words line
  match tokens with
  | [] => .ok .blank
  | keyword :: _ =>
    if keyword = messageKeyword then
      (ofMessageWords line tokens).map .message
    else if keyword = signalKeyword then
      if messageOpen then (ofSignalLine line tokens).map .signal
      else .error (.strayLine (String.ofList line))
    else .ok .other

end Statement

end CanCatalog
