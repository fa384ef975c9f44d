import CanCatalog.Proofs.Number.Literal
import CanCatalog.Proofs.Reading.Meaning
import CanCatalog.Proofs.Statement.Fields

/-!
# Which numbers of a catalogue are finite

Scaling and range are read from literals, and a catalogue should hold nothing
but finite numbers: a range that has no end is no range, and a value scaled by
an infinite factor is no value. A literal with a point or an exponent is refused
if it is too large. But the literal of an integer is always taken, and one of
309 digits and more may be beyond all doubles; its number is then infinite.

This is the only way, and here it is proved as an equivalence. Every number of
a signal stands in the line that states the signal, and it is infinite exactly
if what stands there is an integer that doubles do not reach. So a text
without such integers is read to finite numbers only. What is no number at all
is never read.
-/

namespace CanCatalog

/-- **The numbers of a signal**: its scaling and its range. -/
def Signal.numbers (s : Signal) : List Number :=
  [s.factor, s.offset, s.minimum, s.maximum]

namespace Statement

/-- **A literal in a line**: a part of one of its words, taken as a pair of
numbers in one of the two styles. -/
def LiteralIn (line token : List Char) : Prop :=
  ∃ style, (style = scaling ∨ style = range) ∧ ∃ word ∈ Text.words line,
    token ∈ (style.strip word).splitOnP (· == style.separator)

/-- Both numbers of a pair are literals of its line. -/
theorem exists_literalIn_of_pair {line word : List Char} {style : PairStyle}
    {a b : Number} (h : pair style word = .ok (a, b))
    (hstyle : style = scaling ∨ style = range) (hword : word ∈ Text.words line)
    {n : Number} (hn : n = a ∨ n = b) :
    ∃ token, LiteralIn line token ∧ Number.ofLiteral? token = some n := by
  obtain ⟨first, second, rest, hparts, ha, hb⟩ := pair_eq_ok_iff.1 h
  have hin : ∀ token ∈ first :: second :: rest, LiteralIn line token :=
    fun token htoken => ⟨style, hstyle, word, hword, hparts ▸ htoken⟩
  rcases hn with rfl | rfl
  · exact ⟨first, hin first (by simp), ha⟩
  · exact ⟨second, hin second (by simp), hb⟩

/-- **The numbers of a signal stand in the line that states it.** -/
theorem States.exists_literalIn {s : Signal} {line : List Char}
    (h : States (.signal s) line) {n : Number} (hn : n ∈ s.numbers) :
    ∃ token, LiteralIn line token ∧ Number.ofLiteral? token = some n := by
  obtain ⟨name, -, bits, -, scale, hscale, limits, hlimits, description, -,
    hs⟩ := exists_of_ofSignalLine h.ofSignalLine_eq
  obtain ⟨endBit, length, factor, offset, minimum, maximum, -, hpair, hrange,
    rfl⟩ := ofSignalWords_eq_ok_iff.1 hs
  have hn' : (n = factor ∨ n = offset) ∨ n = minimum ∨ n = maximum := by
    simpa [Signal.numbers, or_assoc] using hn
  rcases hn' with hn' | hn'
  · exact exists_literalIn_of_pair hpair (.inl rfl) hscale hn'
  · exact exists_literalIn_of_pair hrange (.inr rfl) hlimits hn'

end Statement

namespace Reading

open Numeral (Oversized)
open Statement (LiteralIn States)

/-- **The numbers of a catalogue.** Every signal is stated by a line of the
text, and each of its numbers by a literal of that line; it is finite unless the
literal is an integer that doubles do not reach. No other literal denotes an
infinite number, and all of these do. -/
theorem finite_unless_oversized (o : Options) (text : List Char) :
    (∀ c, (ofText o text).outcome = .ok c →
      ∀ id M name s, c.get? id = some M → M.signal? name = some s →
        ∃ line ∈ linesOf text, States (.signal s) line ∧ ∀ n ∈ s.numbers,
          ∃ token, LiteralIn line token ∧ Number.ofLiteral? token = some n
            ∧ n.isNaN = false ∧ (n.isFinite = true ↔ ¬ Oversized token))
    ∧ ∀ token, (∃ n, Number.ofLiteral? token = some n ∧ n.isFinite = false)
        ↔ Oversized token := by
  refine ⟨fun c hc id M name s hM hs => ?_,
    fun token => Number.exists_infinite_iff_oversized⟩
  obtain ⟨line, hline, hstates⟩ := exists_states_of_outcome hc hM hs
  refine ⟨line, hline, hstates, fun n hn => ?_⟩
  obtain ⟨token, htoken, hliteral⟩ := hstates.exists_literalIn hn
  exact ⟨token, htoken, hliteral, Number.isNaN_of_ofLiteral? hliteral,
    Number.isFinite_iff_not_oversized hliteral⟩

/-- A text with one signal, whose factor is an integer of 309 digits. -/
def longFactor : List Char :=
  "BO_ 1 A: 8 X\nSG_ S : 0|8 (".toList ++ List.replicate 309 '9'
    ++ ",0) [0|1] d\n".toList

/-- **Not every number of a catalogue is finite.** A factor of 309 digits is
read, and is infinite. -/
theorem infinite_longFactor :
    ∃ c, (ofText .default longFactor).outcome = .ok c
      ∧ (c.get? 1).any (fun M => (M.signal? "S").any fun s =>
          !s.factor.isFinite) = true :=
  Except.exists_of_any (by decide +kernel)

end Reading

end CanCatalog
