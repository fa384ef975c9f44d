import CanCatalog.Proofs.Catalog.Equality
import CanCatalog.Proofs.Reading.Finiteness
import CanCatalog.Proofs.Reading.Origin

/-!
# When a catalogue equals itself

Equality of catalogues looks at all of their numbers, and a value that is no
number is not equal to itself. So equality need not be reflexive, and a copy of a
catalogue need not equal the original. It fails for this reason only. The tables
add nothing to it: a catalogue is like itself, for whatever relation of numbers,
exactly if all numbers in it are related to themselves
(`Catalog.alike_self_iff`).

No literal denotes what is no number, not even one that denotes an infinite
value. So a catalogue that was read equals itself, and it equals what the same
text is read to another time; and any two numbers of one of its signals can be
compared.
-/

namespace CanCatalog

/-! ## Alike to itself -/

/-- **All numbers that a signal holds**: its scaling, its range and the value
that was recorded, if one was. -/
def Signal.heldNumbers (s : Signal) : List Number :=
  s.numbers ++ s.value.toList

/-- **All numbers of a catalogue satisfy a condition.** -/
def Catalog.AllNumbers (P : Number → Prop) (c : Catalog) : Prop :=
  ∀ id m key s, c.get? id = some m → m.signal? key = some s →
    ∀ n ∈ s.heldNumbers, P n

variable {R : Number → Number → Prop}

/-- An option is related to itself if its value is. -/
theorem rel_self_iff {α : Type} {R : α → α → Prop} {x : Option α} :
    Option.Rel R x x ↔ ∀ a, x = some a → R a a := by
  cases x with
  | none => exact iff_of_true .none nofun
  | some a => simp only [Option.rel_some_some, Option.some_inj, forall_eq']

/-- The numbers of a signal are its four numbers and the recorded one. -/
theorem Signal.forall_heldNumbers_iff {s : Signal} {P : Number → Prop} :
    (∀ n ∈ s.heldNumbers, P n)
      ↔ (P s.factor ∧ P s.offset ∧ P s.minimum ∧ P s.maximum)
        ∧ ∀ n, s.value = some n → P n := by
  unfold heldNumbers numbers
  simp only [List.forall_mem_append, List.forall_mem_cons, Option.mem_toList,
    List.not_mem_nil, false_imp_iff, implies_true, and_true]

/-- **A signal is like itself if all its numbers are.** -/
theorem Signal.alike_self_iff {s : Signal} :
    s.Alike R s ↔ ∀ n ∈ s.heldNumbers, R n n := by
  rw [forall_heldNumbers_iff]
  constructor
  · exact fun h => ⟨⟨h.factor, h.offset, h.minimum, h.maximum⟩,
      rel_self_iff.1 h.value⟩
  · rintro ⟨⟨hfactor, hoffset, hmin, hmax⟩, hvalue⟩
    exact ⟨rfl, rfl, rfl, hfactor, hoffset, hmin, hmax, rfl,
      rel_self_iff.2 hvalue⟩

/-- **A message is like itself if all its signals are.** -/
theorem Message.alike_self_iff {m : Message} :
    m.Alike R m ↔ ∀ key s, m.signal? key = some s →
      ∀ n ∈ s.heldNumbers, R n n := by
  simp only [← Signal.alike_self_iff, ← rel_self_iff]
  exact ⟨fun h key => h.signals key, fun h => ⟨rfl, rfl, rfl, rfl, h⟩⟩

namespace Catalog

/-- **A catalogue is like itself if all its numbers are.** -/
theorem alike_self_iff {c : Catalog} :
    c.Alike R c ↔ c.AllNumbers fun n => R n n := by
  unfold Alike AllNumbers
  simp only [rel_self_iff, Message.alike_self_iff]
  exact ⟨fun h id m key s hm hs => h id m hm key s hs,
    fun h id m hm key s hs => h id m key s hm hs⟩

/-- **A catalogue equals itself if all its numbers are numbers.** -/
theorem sameAs_self_iff {c : Catalog} :
    c.sameAs c = true ↔ c.AllNumbers fun n => n.isNaN = false := by
  rw [sameAs_iff, alike_self_iff]
  unfold Number.Same
  simp only [Number.sameAs_self_iff]

end Catalog

/-! ## What is read -/

namespace Reading

variable {o : Options} {origin : Origin} {c : Catalog} {id : UInt32}
variable {m : Message} {key : String} {s : Signal}

/-- **All numbers that are read are numbers**, and no value is recorded. -/
theorem isNaN_of_outcome (hc : (origin.read o).outcome = .ok c)
    (hm : c.get? id = some m) (hs : m.signal? key = some s) :
    s.value = none ∧ ∀ n ∈ s.numbers, n.isNaN = false := by
  obtain ⟨text, -, htext⟩ := Origin.exists_ofText hc
  obtain ⟨line, -, hstates⟩ := exists_states_of_outcome htext hm hs
  refine ⟨hstates.value_eq, fun n hn => ?_⟩
  obtain ⟨token, -, hliteral⟩ := hstates.exists_literalIn hn
  exact Number.isNaN_of_ofLiteral? hliteral

/-- So all numbers that a signal holds are. -/
theorem allNumbers_of_outcome (hc : (origin.read o).outcome = .ok c) :
    c.AllNumbers fun n => n.isNaN = false := by
  intro id m key s hm hs n hn
  obtain ⟨hvalue, hnumbers⟩ := isNaN_of_outcome hc hm hs
  rw [Signal.heldNumbers, hvalue, Option.toList_none, List.append_nil] at hn
  exact hnumbers n hn

/-- **When a catalogue equals itself.** Any catalogue, as it was read or changed in
any way, does so exactly if every factor, offset, bound and recorded value in it
is a number. A catalogue that was read, whatever the options are and wherever it
is read from, has no others. So it equals itself, and from every source that has
the same text a catalogue is read that it equals; and the scaling and the range
of a signal are four numbers of which any two can be compared. -/
theorem equals_itself_unless_nan :
    (∀ c : Catalog, c.sameAs c = true
      ↔ ∀ id m key s, c.get? id = some m → m.signal? key = some s →
          ∀ n ∈ [s.factor, s.offset, s.minimum, s.maximum] ++ s.value.toList,
            n.isNaN = false)
    ∧ ∀ (o : Options) (origin : Origin) (c : Catalog),
        (origin.read o).outcome = .ok c →
        (∀ id m key s, c.get? id = some m → m.signal? key = some s →
          (∀ n ∈ [s.factor, s.offset, s.minimum, s.maximum] ++ s.value.toList,
            n.isNaN = false)
          ∧ ∀ a ∈ s.numbers, ∀ b ∈ s.numbers, (a.compare? b).isSome = true)
        ∧ c.sameAs c = true
        ∧ ∀ other : Origin, other.text? = origin.text? →
            ∃ d, (other.read o).outcome = .ok d ∧ c.sameAs d = true := by
  refine ⟨fun c => Catalog.sameAs_self_iff, fun o origin c hc => ?_⟩
  have hnumbers := allNumbers_of_outcome hc
  have hself := Catalog.sameAs_self_iff.2 hnumbers
  refine ⟨fun id m key s hm hs => ⟨hnumbers id m key s hm hs, ?_⟩, hself, ?_⟩
  · intro a ha b hb
    obtain ⟨-, hreal⟩ := isNaN_of_outcome hc hm hs
    exact Number.compare?_isSome_iff.2 ⟨hreal a ha, hreal b hb⟩
  · intro other hother
    obtain ⟨text, htext, hread⟩ := Origin.exists_ofText hc
    exact ⟨c, (Origin.outcome_read (hother.trans htext)).trans hread, hself⟩

end Reading

end CanCatalog
