import CanCatalog.Binary64.Shortest

/-!
# Numbers of a catalogue

The scaling and the range of a signal are written by hand, some as integers
and some as decimals, and the difference is worth keeping: an integer is kept
exactly, up to the limits of a machine word, and everything else as the
nearest double.

So numbers come in two kinds, but they are still numbers, and a bound of one
kind is compared with a bound of the other. Two integers compare exactly.
Otherwise both are taken as doubles, an integer being rounded to the nearest
one first – which makes integers beyond `2^53` equal to doubles that they
differ from. The order is partial, because a value that was recorded later may
be no number at all, and that compares with nothing.
-/

namespace CanCatalog

/-- **A number as it was written**: an integer if it fits a machine word, a
double otherwise. -/
inductive Number where
  /-- An integer, kept exactly. -/
  | integer (value : Int64)
  /-- A decimal, or an integer too large for a word. -/
  | real (value : Binary64)
deriving DecidableEq

namespace Number

/-- Whether the number is kept as an integer. -/
def isInteger : Number → Bool
  | integer _ => true
  | real _ => false

/-- The value as a double, rounded if it is a large integer. -/
def toBinary64 : Number → Binary64
  | integer v => Binary64.ofInt v.toInt
  | real x => x

/-- Neither infinite nor undefined. -/
def isFinite : Number → Bool
  | integer _ => true
  | real x => x.isFinite

/-- Whether this is a code that denotes no number. -/
def isNaN : Number → Bool
  | integer _ => false
  | real x => x.isNaN

/-- **The integer that a number is.** A double counts if it has no fractional
part and its magnitude is below `2^63`, a bound that is the same for both
signs. -/
def toInt? : Number → Option Int
  | integer v => some v.toInt
  | real x => x.toInt?.filter fun v => decide (v.natAbs < 0x8000000000000000)

/-- **The order of numbers**: exact between integers, between doubles
otherwise. -/
def compare? : Number → Number → Option Ordering
  | integer a, integer b => some (compare a.toInt b.toInt)
  | a, b => a.toBinary64.compare? b.toBinary64

/-- Equality of values; what is no number is not equal to itself. -/
def sameAs (a b : Number) : Bool := a.compare? b == some .eq

/-- Strictly smaller. -/
def below (a b : Number) : Bool := a.compare? b == some .lt

/-- Strictly larger. -/
def above (a b : Number) : Bool := a.compare? b == some .gt

/-- The decimal text of an integer. -/
def integerText (v : Int) : List Char :=
  if v < 0 then '-' :: Nat.toDigits 10 v.natAbs else Nat.toDigits 10 v.natAbs

/-- **The text of a number**: all its digits, no exponent. -/
def text : Number → List Char
  | integer v => integerText v.toInt
  | real x => x.text

end Number

end CanCatalog
