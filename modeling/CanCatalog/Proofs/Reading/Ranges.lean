import CanCatalog.Proofs.Number.Value
import CanCatalog.Proofs.Reading.Finiteness
import CanCatalog.Proofs.Reading.Invariant
import CanCatalog.Proofs.Reading.Origin

/-!
# Checking the ranges of signals

A range whose least value is above its largest one holds nothing, and a reading
may be asked to refuse it. The two bounds are numbers as they were written, and
they can be of different kinds; then the integer is rounded before the two are
compared. What a reading refuses is nevertheless said in terms of exact values:
a range is refused only if its bounds are the wrong way around, and it is refused
whenever they are, unless one bound is an integer and the other the double that
this integer is rounded to.

So in a catalogue that was read with this check, every range holds a value or
has bounds that rounding makes equal. Below `2^53` the two do not differ.
-/

namespace CanCatalog

open Statement (States)

namespace Signal

variable {s : Signal}

/-- **The bounds are the wrong way around**: the exact least value is above the
exact largest one. -/
def Inverted (s : Signal) : Prop :=
  ∃ lo hi, s.minimum.value? = some lo ∧ s.maximum.value? = some hi ∧ hi < lo

/-- **The bounds are the right way around**, or rounding makes them equal. -/
def RangeHolds (s : Signal) : Prop :=
  ∃ lo hi, s.minimum.value? = some lo ∧ s.maximum.value? = some hi
    ∧ (lo ≤ hi ∨ s.minimum.Blurred s.maximum)

/-- **Which ranges are found empty.** -/
theorem above_iff_inverted :
    s.minimum.above s.maximum = true
      ↔ s.Inverted ∧ ¬ s.minimum.Blurred s.maximum := by
  constructor
  · intro h
    have hbelow := (Number.below_eq_above _ _).trans h
    obtain ⟨⟨hmax, hmin⟩, -⟩ := Number.below_iff.1 hbelow
    have hlo := Number.value?_eq hmin
    have hhi := Number.value?_eq hmax
    obtain ⟨hlt, hblurred⟩ := (Number.above_iff_value_lt hlo hhi).1 h
    exact ⟨⟨_, _, hlo, hhi, hlt⟩, hblurred⟩
  · rintro ⟨⟨lo, hi, hlo, hhi, hlt⟩, hblurred⟩
    exact (Number.above_iff_value_lt hlo hhi).2 ⟨hlt, hblurred⟩

end Signal

namespace Statement.States

variable {s : Signal} {line : List Char}

/-- What is read from a literal has a value. -/
theorem exists_value (h : States (.signal s) line) {n : Number}
    (hn : n ∈ s.numbers) : ∃ value, n.value? = some value := by
  obtain ⟨token, -, hliteral⟩ := h.exists_literalIn hn
  exact ⟨_, Number.value?_eq (Number.isNaN_of_ofLiteral? hliteral)⟩

/-- **The bounds of a signal that is stated have values.** -/
theorem exists_bounds (h : States (.signal s) line) :
    ∃ lo hi, s.minimum.value? = some lo ∧ s.maximum.value? = some hi := by
  obtain ⟨lo, hlo⟩ := h.exists_value (n := s.minimum) (by simp [Signal.numbers])
  obtain ⟨hi, hhi⟩ := h.exists_value (n := s.maximum) (by simp [Signal.numbers])
  exact ⟨lo, hi, hlo, hhi⟩

/-- A range that is not found empty holds. -/
theorem rangeHolds (h : States (.signal s) line)
    (habove : ¬ s.minimum.above s.maximum = true) : s.RangeHolds := by
  obtain ⟨lo, hi, hlo, hhi⟩ := h.exists_bounds
  refine ⟨lo, hi, hlo, hhi, ?_⟩
  rw [Number.above_iff_value_lt hlo hhi, not_and_not_right] at habove
  exact (le_or_gt lo hi).imp_right habove

end Statement.States

namespace Progress

variable {o : Options} {p : Progress} {id : UInt32} {m : Message} {s : Signal}
variable {line : List Char}

/-- **A signal in its place is added** to the message that is being defined. -/
theorem step_eq_addSignal (hcur : p.currentMessage? = some (id, m))
    (hs : States (.signal s) (p.seen line)) :
    p.step o line = (p.advance.addSignal o id m s).atLine (p.lines + 1) := by
  have hopen : p.current.isSome = true := by
    unfold currentMessage? at hcur
    obtain ⟨id', hid, -⟩ := Option.bind_eq_some_iff.1 hcur
    rw [hid]
    rfl
  have hcur' : p.advance.currentMessage? = some (id, m) := hcur
  have hst : Statement.ofLine p.current.isSome (p.seen line)
      = .ok (.signal s) := by
    rw [hopen]
    exact hs
  rw [step_of_ok o hst]
  simp only [apply, hcur']

/-- **When the range is what is wrong with a signal.** -/
theorem addSignal_eq_emptyRange_iff {name : String} {a b : Number} :
    (p.addSignal o id m s).outcome = .error (.emptyRange name a b)
      ↔ (o.checkRanges = true ∧ s.minimum.above s.maximum = true)
        ∧ name = s.name ∧ a = s.minimum ∧ b = s.maximum := by
  unfold addSignal
  dsimp only
  rw [← Bool.and_eq_true]
  split
  · next h =>
    constructor
    · intro hempty
      obtain ⟨rfl, rfl, rfl⟩ := Fault.emptyRange.inj (Except.error.inj hempty)
      exact ⟨h, rfl, rfl, rfl⟩
    · rintro ⟨-, rfl, rfl, rfl⟩
      rfl
  · next h =>
    refine iff_of_false ?_ fun hall => h hall.1
    split
    · split
      · simp
      · exact nofun
    · simp

/-- **A range that is not found empty makes no difference.** -/
theorem addSignal_eq_of_not_above (h : ¬ s.minimum.above s.maximum = true) :
    p.addSignal o id m s = p.addSignal (o.checkingRanges false) id m s := by
  unfold addSignal
  rw [Bool.eq_false_iff.2 h, Bool.and_false, Bool.and_false]
  rfl

/-- **When a signal is refused for its range.** -/
theorem step_eq_emptyRange_iff (hcur : p.currentMessage? = some (id, m))
    (hs : States (.signal s) (p.seen line)) {n : Nat} {name : String}
    {a b : Number} :
    (p.step o line).outcome = .error (.atLine n (.emptyRange name a b))
      ↔ (o.checkRanges = true ∧ s.Inverted ∧ ¬ s.minimum.Blurred s.maximum)
        ∧ n = p.lines + 1 ∧ name = s.name ∧ a = s.minimum ∧ b = s.maximum := by
  rw [step_eq_addSignal hcur hs]
  unfold Effect.atLine
  rw [Except.mapError_eq_error_iff, ← Signal.above_iff_inverted]
  constructor
  · rintro ⟨fault, hfault, heq⟩
    obtain ⟨rfl, rfl⟩ := ReadError.atLine.inj heq
    obtain ⟨hempty, hfields⟩ := addSignal_eq_emptyRange_iff.1 hfault
    exact ⟨hempty, rfl, hfields⟩
  · rintro ⟨hempty, rfl, hfields⟩
    exact ⟨_, addSignal_eq_emptyRange_iff.2 ⟨hempty, hfields⟩, rfl⟩

end Progress

namespace Reading

open Progress (readLines_append_eq_ok_iff readLines_cons of_readLines_start)

/-- **A line of a text that is read is not objected to**, where it stands. -/
theorem exists_objection?_eq_none {o : Options} {p : Progress}
    {lines : List (List Char)} (h : Progress.start.readLines o lines = .ok p)
    {line : List Char} (hline : line ∈ lines) {st : Statement}
    (hst : States st line) : ∃ q : Progress, q.objection? o st = none := by
  obtain ⟨front, back, rfl⟩ := List.append_of_mem hline
  obtain ⟨q, hq, hback⟩ := readLines_append_eq_ok_iff.1 h
  rw [readLines_cons] at hback
  obtain ⟨r, hr, -⟩ := Except.bind_eq_ok_iff.1 hback
  obtain ⟨hcoh, -⟩ := of_readLines_start hq
  obtain ⟨st', hst', hobj, -⟩ := hcoh.readLine_eq_ok_iff.1 hr
  obtain rfl := hst.unique (Statement.states_of_ofLine hst')
  exact ⟨q, hobj⟩

/-- **Every range of a catalogue holds**, if ranges are checked. -/
theorem rangeHolds_of_outcome {o : Options} (ho : o.checkRanges = true)
    {text : List Char} {c : Catalog} (hc : (ofText o text).outcome = .ok c)
    {id : UInt32} {M : Message} (hM : c.get? id = some M) {name : String}
    {s : Signal} (hs : M.signal? name = some s) : s.RangeHolds := by
  obtain ⟨line, hline, hstates⟩ := exists_states_of_outcome hc hM hs
  obtain ⟨p, hp, -⟩ := outcome_ofText_eq_ok_iff.1 hc
  obtain ⟨q, hobj⟩ := exists_objection?_eq_none hp hline hstates
  refine hstates.rangeHolds fun habove => ?_
  unfold Progress.objection? at hobj
  dsimp only at hobj
  rw [ho, habove] at hobj
  exact absurd hobj nofun

/-- **What any source is read to is what a text is read to.** -/
theorem exists_text_of_source {o : Options} {c : Catalog}
    (h : (∃ text, (ofText o text).outcome = .ok c)
      ∨ (∃ bytes, (ofStream o bytes).outcome = .ok c)
      ∨ ∃ label contents, (ofFile o label contents).outcome = .ok c) :
    ∃ text, (ofText o text).outcome = .ok c := by
  rcases h with h | ⟨bytes, h⟩ | ⟨label, contents, h⟩
  · exact h
  · obtain ⟨text, htext⟩ := exists_decode_of_ofStream h
    exact ⟨text, ofStream_of_decode o htext ▸ h⟩
  · exact exists_text_of_ofFile h

/-- **How ranges are checked.** The bounds of a signal have exact values. Where a
message is being defined, a signal is refused for its range exactly if the check
is asked for and the bounds are the wrong way around, unless one of them is an
integer and the other the double that it is rounded to; and the fault names the
line, the signal and its bounds. All other signals are treated as if the check had
not been asked for. So in a catalogue that was read with the check, from any
source, the bounds of a signal are the right way around or they are such a pair;
and a pair whose values differ is beyond `2^53`. -/
theorem empty_ranges_are_refused (o : Options) :
    (∀ (p : Progress) id m line s, p.currentMessage? = some (id, m) →
      States (.signal s) (p.seen line) →
      (∃ lo hi, s.minimum.value? = some lo ∧ s.maximum.value? = some hi)
      ∧ ((∃ n name a b,
            (p.step o line).outcome = .error (.atLine n (.emptyRange name a b)))
          ↔ o.checkRanges = true ∧ s.Inverted
            ∧ ¬ s.minimum.Blurred s.maximum)
      ∧ (∀ n name a b,
          (p.step o line).outcome = .error (.atLine n (.emptyRange name a b)) →
          n = p.lines + 1 ∧ name = s.name ∧ a = s.minimum ∧ b = s.maximum)
      ∧ (¬ (s.Inverted ∧ ¬ s.minimum.Blurred s.maximum) →
          p.step o line = p.step (o.checkingRanges false) line))
    ∧ (o.checkRanges = true → ∀ c,
      (∃ text, (ofText o text).outcome = .ok c)
        ∨ (∃ bytes, (ofStream o bytes).outcome = .ok c)
        ∨ (∃ label contents, (ofFile o label contents).outcome = .ok c) →
      ∀ id M name s, c.get? id = some M → M.signal? name = some s →
        s.RangeHolds)
    ∧ ∀ a b : Number, a.Blurred b → a.value? ≠ b.value? →
      ∃ v : Int64, (a = .integer v ∨ b = .integer v)
        ∧ 2 ^ 53 < v.toInt.natAbs := by
  refine ⟨fun p id m line s hcur hs => ?_, fun ho c hc id M name s hM hs => ?_,
    fun a b => Number.Blurred.exists_natAbs_lt⟩
  · have hrefused : ∀ n name a b,
        (p.step o line).outcome = .error (.atLine n (.emptyRange name a b))
          ↔ (o.checkRanges = true ∧ s.Inverted
              ∧ ¬ s.minimum.Blurred s.maximum)
            ∧ n = p.lines + 1 ∧ name = s.name ∧ a = s.minimum ∧ b = s.maximum :=
      fun n name a b => Progress.step_eq_emptyRange_iff hcur hs
    refine ⟨hs.exists_bounds, ⟨?_, ?_⟩, ?_, ?_⟩
    · rintro ⟨n, name, a, b, h⟩
      exact ((hrefused n name a b).1 h).1
    · exact fun h => ⟨_, _, _, _, (hrefused _ _ _ _).2 ⟨h, rfl, rfl, rfl, rfl⟩⟩
    · exact fun n name a b h => ((hrefused n name a b).1 h).2
    · intro h
      rw [Progress.step_eq_addSignal hcur hs, Progress.step_eq_addSignal hcur hs,
        Progress.addSignal_eq_of_not_above (mt Signal.above_iff_inverted.1 h)]
  · obtain ⟨text, htext⟩ := exists_text_of_source hc
    exact rangeHolds_of_outcome ho htext hM hs

/-- A text with one signal, whose least value is the integer `2^53 + 1` and whose
largest one is the double `2^53`, to which that integer is rounded. -/
def blurredText : List Char :=
  ("BO_ 1 A: 8 X\nSG_ S : 0|8 (1,0) " ++
    "[9007199254740993|9007199254740992.0] s\n").toList

/-- **An inverted range can be read although ranges are checked.** -/
theorem inverted_range_is_read :
    ∃ c M s, (ofText (Options.default.checkingRanges true)
        blurredText).outcome = .ok c
      ∧ c.get? 1 = some M ∧ M.signal? "S" = some s ∧ s.Inverted := by
  have hread : ((ofText (Options.default.checkingRanges true)
      blurredText).outcome.toOption.any fun c => (c.get? 1).any fun M =>
        (M.signal? "S").any fun s =>
          decide (s.minimum = .integer 9007199254740993
            ∧ s.maximum = .real (Binary64.ofInt 9007199254740992))) = true := by
    decide +kernel
  obtain ⟨c, hc, hfound⟩ := Except.exists_of_any hread
  obtain ⟨M, hM, hfound⟩ := (Option.any_eq_true _ _).1 hfound
  obtain ⟨s, hs, hbounds⟩ := (Option.any_eq_true _ _).1 hfound
  obtain ⟨hmin, hmax⟩ := of_decide_eq_true hbounds
  have hlo := Number.value?_eq (a := s.minimum) (by rw [hmin]; rfl)
  have hhi := Number.value?_eq (a := s.maximum) (by rw [hmax]; decide +kernel)
  refine ⟨c, M, s, hc, hM, hs, _, _, hlo, hhi, ?_⟩
  rw [Number.value_lt_iff hhi hlo, hmin, hmax]
  decide +kernel

end Reading

end CanCatalog
