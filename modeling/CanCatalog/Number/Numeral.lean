import CanCatalog.Number
import CanCatalog.Text.Blank

/-!
# Reading numerals

Numerals come in two forms. A *natural numeral* is a run of digits, with at
most one plus sign before it, and is used where a count or an identifier is
meant; it is read exactly and then held against the limit of its field.

A *literal* is what stands in a scaling or a range, and it is read as an integer
of a machine word or as a double. What a text has to be for either is given by
the two readers for machine numbers (`int64?`, `double?`), and the second takes
more than is wanted here: words for what is infinite or no number at all. So a
literal is looked at before it is read. Its sign is set aside; if digits are left
and nothing else, it is an integer, and a double if no word holds it. Otherwise
there must be a digit, and no characters but those of decimals, so that no word
gets through, and the double has to be finite.

It is not obvious which texts pass both the looking and the reading; that they are
the literals one would write is a theorem.
-/

namespace CanCatalog

namespace Numeral

/-! ## Natural numerals -/

/-- The value of a run of digits; of nothing else. -/
def digits? (text : List Char) : Option Nat :=
  if !text.isEmpty && text.all Char.isDigit then
    some (Nat.ofDigitChars 10 text 0)
  else none

/-- **A natural numeral**: digits, after at most one plus sign. -/
def natural? : List Char → Option Nat
  | '+' :: rest => digits? rest
  | text => digits? text

/-- A natural numeral below `2^32`. -/
def uint32? (text : List Char) : Option UInt32 :=
  (natural? text).bind fun n =>
    if n < UInt32.size then some (UInt32.ofNat n) else none

/-- A natural numeral below `2^16`. -/
def uint16? (text : List Char) : Option UInt16 :=
  (natural? text).bind fun n =>
    if n < UInt16.size then some (UInt16.ofNat n) else none

/-! ## Signs and decimals -/

/-- Splits off one sign: whether it is a minus, and what follows. -/
def splitSign : List Char → Bool × List Char
  | '-' :: rest => (true, rest)
  | '+' :: rest => (false, rest)
  | text => (false, text)

/-- Splits off the digits at the front. -/
def splitDigits (text : List Char) : List Char × List Char :=
  (text.takeWhile Char.isDigit, text.dropWhile Char.isDigit)

/-- What may follow the digits of a decimal: nothing, or an exponent with a
sign of its own. -/
def exponent? : List Char → Option Int
  | [] => some 0
  | mark :: rest =>
    if mark = 'e' ∨ mark = 'E' then
      let (negative, body) := splitSign rest
      (digits? body).map fun n => if negative then -(n : Int) else n
    else none

/-- **A decimal without its sign**: digits with at most one point among or
around them, at least one digit, then perhaps an exponent. Answers the digits
as one number and the power of ten that scales it. -/
def decimal? (text : List Char) : Option (Nat × Int) :=
  let (whole, rest) := splitDigits text
  let (fraction, rest) := match rest with
    | '.' :: rest => splitDigits rest
    | rest => ([], rest)
  if whole.isEmpty && fraction.isEmpty then none
  else (exponent? rest).map fun e =>
    (Nat.ofDigitChars 10 (whole ++ fraction) 0, e - fraction.length)

/-! ## Machine numbers -/

/-- **The integer of a machine word that a text denotes**: digits after an
optional sign. An integer that no word holds is none. -/
def int64? (text : List Char) : Option Int64 :=
  let (negative, body) := splitSign text
  (digits? body).bind fun n =>
    let v : Int := if negative then -(n : Int) else n
    if Int64.minValue.toInt ≤ v ∧ v ≤ Int64.maxValue.toInt then
      some (Int64.ofInt v)
    else none

/-- The double that is named by a word, in letters of either case. -/
def named? (negative : Bool) (word : List Char) : Option Binary64 :=
  let lower := word.map Char.toLower
  if lower = ['i', 'n', 'f'] ∨ lower = ['i', 'n', 'f', 'i', 'n', 'i', 't', 'y'] then
    some (Binary64.infinity negative)
  else if lower = ['n', 'a', 'n'] then some (Binary64.nan negative)
  else none

/-- **The double that a text denotes**: after an optional sign a decimal, which is
rounded to the nearest double and may be too large for a finite one, or else a
word for an infinity or for what is no number. -/
def double? (text : List Char) : Option Binary64 :=
  let (negative, body) := splitSign text
  match decimal? body with
  | some (digits, exponent) =>
    some (Binary64.ofDecimal negative digits exponent)
  | none => named? negative body

/-! ## Literals -/

/-- The characters that decimals are written with, in any order. -/
def isDecimalChar (c : Char) : Bool :=
  c.isDigit || c == '.' || c == 'e' || c == 'E' || c == '+' || c == '-'

end Numeral

/-- **The number that a literal denotes**, white space around it aside. Digits
alone are an integer, and if no word holds it the double that they denote, which
need not be finite. -/
def Number.ofLiteral? (token : List Char) : Option Number :=
  let text := Text.trim token
  let body := (Numeral.splitSign text).2
  if body.isEmpty then none
  else if body.all Char.isDigit then
    ((Numeral.int64? text).map .integer).or
      ((Numeral.double? text).map .real)
  else if body.any Char.isDigit && body.all Numeral.isDecimalChar then
    ((Numeral.double? text).filter Binary64.isFinite).map .real
  else none

end CanCatalog
