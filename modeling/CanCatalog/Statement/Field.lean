import CanCatalog.Fault
import CanCatalog.Number.Numeral

/-!
# Fields of a signal

Behind the colon of a signal stand three words that are taken apart further: where
the signal lies, how it is scaled, and its range.

The first is a bit and a number of bits. Two separators are in use for the same
thing, so they are not told apart. In most files a byte order and a sign follow
behind a further separator. They are not needed to say where the signal is, and
nothing is required of them.

Scaling and range are pairs of numbers in brackets. The brackets are a help to
the reader and carry no information: they are taken away wherever they stand,
and a pair without them is a pair.
-/

namespace CanCatalog.Statement

/-! ## Positions of bits -/

/-- **A position of bits**, `<bit>|<length>` or `<bit>@<length>`. Whatever a
further separator sets apart is not looked at: there the format describes the
order of bytes and the sign. -/
def bitField (token : List Char) : Except Fault (UInt16 × UInt16) :=
  let fault := fun why => Fault.badBitField (String.ofList token) why
  match token.splitOnP (fun c => c == '@' || c == '|') with
  | first :: second :: _ =>
    match Numeral.uint16? first with
    | none => .error (fault .endBit)
    | some endBit =>
      match Numeral.uint16? second with
      | none => .error (fault .length)
      | some length =>
        if length = 0 then .error (fault .empty) else .ok (endBit, length)
  | _ => .error (fault .noSeparator)

/-! ## Pairs of numbers -/

/-- How a pair of numbers is written: its brackets and what separates it. -/
structure PairStyle where
  /-- The bracket on the left. -/
  opening : Char
  /-- The bracket on the right. -/
  closing : Char
  /-- What stands between the numbers. -/
  separator : Char

/-- Scaling: `(<factor>,<offset>)`. -/
def scaling : PairStyle := ⟨'(', ')', ','⟩

/-- A range: `[<minimum>|<maximum>]`. -/
def range : PairStyle := ⟨'[', ']', '|'⟩

/-- A word without the brackets of a style, wherever they stand. -/
def PairStyle.strip (style : PairStyle) (token : List Char) : List Char :=
  token.filter fun c => !(c == style.opening || c == style.closing)

/-- A number, or the fault that there is none. -/
def literal (token : List Char) : Except Fault Number :=
  match Number.ofLiteral? token with
  | some n => .ok n
  | none => .error (.notANumber (String.ofList token))

/-- **A pair of numbers.** Brackets are left aside, and so are parts beyond the
second. A word that is no pair at all is quoted as it was written, a part that
is no number without brackets. -/
def pair (style : PairStyle) (token : List Char) :
    Except Fault (Number × Number) :=
  match (style.strip token).splitOnP (· == style.separator) with
  | first :: second :: _ => do
    let a ← literal first
    let b ← literal second
    pure (a, b)
  | _ => .error (.notANumber (String.ofList token))

end CanCatalog.Statement
