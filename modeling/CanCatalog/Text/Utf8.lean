/-!
# Characters from bytes

Catalogue files come in two encodings, and only one of them can be recognised.
UTF-8 is strict: a character has exactly one form, the surrogate code points
have none, and so most sequences of bytes are not UTF-8 at all. Latin-1 gives
every byte the character of that number and accepts everything. So a text is
read as UTF-8 first, and Latin-1 is what remains.

The decoder takes one character at a time. Its first byte says how many bytes
follow; what they say together has to be a character, and one that has no
shorter form.
-/

namespace CanCatalog.Text

namespace Utf8

/-- The six bits that a continuation byte `10xxxxxx` carries. -/
def continuation? (b : UInt8) : Option Nat :=
  if b.toNat / 64 = 2 then some (b.toNat % 64) else none

/-- The character of a number that is at least as large as the least one that
needs this form. Surrogates and numbers beyond the last character have none. -/
def scalar? (least n : Nat) : Option Char :=
  if h : least ≤ n ∧ n.isValidChar then some (Char.ofNatAux n h.2) else none

/-- A character in two bytes. -/
def two? (a b : UInt8) : Option Char := do
  scalar? 0x80 (a.toNat % 32 * 64 + (← continuation? b))

/-- A character in three bytes. -/
def three? (a b c : UInt8) : Option Char := do
  scalar? 0x800
    ((a.toNat % 16 * 64 + (← continuation? b)) * 64 + (← continuation? c))

/-- A character in four bytes. -/
def four? (a b c d : UInt8) : Option Char := do
  scalar? 0x10000
    (((a.toNat % 8 * 64 + (← continuation? b)) * 64 + (← continuation? c)) * 64
      + (← continuation? d))

/-- **Decodes UTF-8**, or refuses: a byte that begins no character, a
character that is cut short, a form that is too long, a surrogate. -/
def decode : List UInt8 → Option (List Char)
  | [] => some []
  | a :: rest =>
    if a.toNat < 0x80 then (decode rest).map (Char.ofNat a.toNat :: ·)
    else if a.toNat / 32 = 6 then
      match rest with
      | b :: rest => (two? a b).bind fun ch => (decode rest).map (ch :: ·)
      | _ => none
    else if a.toNat / 16 = 14 then
      match rest with
      | b :: c :: rest =>
        (three? a b c).bind fun ch => (decode rest).map (ch :: ·)
      | _ => none
    else if a.toNat / 8 = 30 then
      match rest with
      | b :: c :: d :: rest =>
        (four? a b c d).bind fun ch => (decode rest).map (ch :: ·)
      | _ => none
    else none

end Utf8

/-- **Decodes Latin-1**: each byte is the character of its number. -/
def latin1 (bytes : List UInt8) : List Char :=
  bytes.map fun b => Char.ofNat b.toNat

end CanCatalog.Text
