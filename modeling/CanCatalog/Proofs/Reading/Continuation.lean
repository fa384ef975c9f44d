import CanCatalog.Proofs.Reading.Meaning
import CanCatalog.Proofs.Reading.Selection
import CanCatalog.Proofs.Text.Cut
import Mathlib.Data.Nat.Find

/-!
# Texts written one behind the other

Two texts can be read one by one, or put together and read at once. That this
comes to the same is not obvious, because the second text finds a reading that
has begun: there are messages already, and one of them may still be open. But a
text that can be read alone has no signal before its first message. So what was
open does not matter to it, and what is stored matters only if repeated
messages are to be refused.

The two readings of the second text, alone and behind the first, are therefore
kept side by side (`Progress.Continues`). What is stored behind the first text
is what is stored alone, laid over the catalogue of the first; and where a
message is being defined in the one, it is being defined in the other.
-/

namespace CanCatalog

open Statement (States signalKeyword)

/-- **One catalogue is another one laid over a third**: a message is looked up
above, and below if it is not there. -/
def Catalog.IsOverlay (whole above below : Catalog) : Prop :=
  ∀ id, whole.get? id = (above.get? id).or (below.get? id)

namespace Catalog.IsOverlay

variable {whole above below : Catalog}

/-- Nothing laid over a catalogue leaves it as it is. -/
theorem empty_above (c : Catalog) : c.IsOverlay .empty c := fun id => by
  rw [Catalog.get?_empty, Option.none_or]

/-- An identifier is taken if it is taken above or below. -/
theorem contains_eq (h : whole.IsOverlay above below) (id : UInt32) :
    whole.contains id = (above.contains id || below.contains id) := by
  rw [Catalog.contains_eq_isSome, h, Option.isSome_or,
    ← Catalog.contains_eq_isSome, ← Catalog.contains_eq_isSome]

theorem insert (h : whole.IsOverlay above below) (m : Message) :
    (whole.insert m).IsOverlay (above.insert m) below := fun id => by
  rw [Catalog.get?_insert, Catalog.get?_insert, h]
  split <;> rfl

/-- A change of what is above is a change of the whole. -/
theorem modify (h : whole.IsOverlay above below) {id : UInt32} {m : Message}
    (hm : above.get? id = some m) (f : Message → Message) :
    (whole.modify id f).IsOverlay (above.modify id f) below := fun id' => by
  rw [Catalog.get?_modify, Catalog.get?_modify, h, h, hm]
  split <;> rfl

/-- A selection from the whole is made from both. -/
theorem restrict (h : whole.IsOverlay above below) (keeps : UInt32 → Bool) :
    (whole.restrict keeps).IsOverlay (above.restrict keeps)
      (below.restrict keeps) := fun id => by
  simp only [Catalog.get?_restrict_eq_ite, h id]
  split <;> rfl

end Catalog.IsOverlay

namespace Progress

variable {o : Options} {base : Catalog} {p q : Progress}
variable {lines : List (List Char)} {line : List Char}

/-! ## Two readings side by side -/

/-- **A reading behind another text goes as it does alone**: what is stored in
`p` is what is stored in `q`, laid over `base`; and a message that is being
defined in `q` is being defined in `p`. -/
structure Continues (base : Catalog) (q p : Progress) : Prop where
  /-- What is read lies over what was there. -/
  catalog : p.catalog.IsOverlay q.catalog base
  /-- The message that is being defined is the same, if there is one. -/
  current : ∀ id, q.current = some id → p.current = some id

/-- At the beginning of the second text. -/
theorem continues_start (p : Progress) : Continues p.catalog .start p where
  catalog := .empty_above p.catalog
  current id h := absurd h (by simp [start])

/-- The message that is being defined is the same in both readings. -/
theorem Continues.currentMessage?_eq (h : Continues base q p)
    (hq : q.Coherent) (hopen : q.current.isSome = true) :
    ∃ id m, q.catalog.get? id = some m ∧ q.current = some id
      ∧ p.current = some id ∧ p.currentMessage? = q.currentMessage? := by
  obtain ⟨id, hid⟩ := Option.isSome_iff_exists.1 hopen
  obtain ⟨m, hm, -, hcur⟩ := hq.currentMessage? hid
  refine ⟨id, m, hm, hid, h.current id hid, ?_⟩
  rw [hcur]
  unfold Progress.currentMessage?
  rw [h.current id hid, Option.bind_some, h.catalog, hm]
  rfl

/-- **The options object to the same**, unless they object to a message that
was there before. -/
theorem Continues.objection?_eq (h : Continues base q p) (hq : q.Coherent)
    {st : Statement} (hopen : ∀ s, st = .signal s → q.current.isSome = true)
    (hnew : ∀ m, st = .message m → o.rejectRepeatedMessages = true →
      base.contains m.id = false) :
    p.objection? o st = q.objection? o st := by
  cases st with
  | blank => rfl
  | other => rfl
  | message m =>
    simp only [objection?, h.catalog.contains_eq]
    cases hreject : o.rejectRepeatedMessages with
    | false => rfl
    | true => rw [hnew m rfl hreject, Bool.or_false]
  | signal s =>
    obtain ⟨_, _, -, -, -, hcur⟩ := h.currentMessage?_eq hq (hopen s rfl)
    simp only [objection?, hcur]

/-- **What is accepted is accepted side by side.** -/
theorem Continues.accept (h : Continues base q p) (hq : q.Coherent)
    {st : Statement} (hopen : ∀ s, st = .signal s → q.current.isSome = true) :
    Continues base (q.accept st) (p.accept st) := by
  cases st with
  | blank => exact ⟨h.catalog, fun id hid => hid⟩
  | other => exact h
  | message m => exact ⟨h.catalog.insert m, fun id hid => hid⟩
  | signal s =>
    obtain ⟨id, m, hm, hcur, hcur', -⟩ :=
      h.currentMessage?_eq hq (hopen s rfl)
    rw [accept_signal hcur, accept_signal hcur']
    exact ⟨h.catalog.modify hm _, h.current⟩

/-- **A line that is read alone is read behind another text**, unless it
repeats a message of that text against the options. -/
theorem Continues.readLine (h : Continues base q p) (hq : q.Coherent)
    (hp : p.Coherent) {q' : Progress} (hread : q.readLine o line = .ok q')
    (hnew : ∀ m, States (.message m) line → o.rejectRepeatedMessages = true →
      base.contains m.id = false) :
    ∃ p', p.readLine o line = .ok p' ∧ Continues base q' p' := by
  obtain ⟨st, hst, hobj, rfl⟩ := hq.readLine_eq_ok_iff.1 hread
  obtain ⟨hstates, hplace⟩ := Statement.ofLine_eq_ok_iff.1 hst
  have hopen : ∀ s, st = .signal s → q.current.isSome = true := by
    rintro s rfl
    exact hplace hstates.kind
  have hst' : Statement.ofLine p.current.isSome line = .ok st := by
    refine Statement.ofLine_eq_ok_iff.2 ⟨hstates, fun hbegins => ?_⟩
    obtain ⟨id, hid⟩ := Option.isSome_iff_exists.1 (hplace hbegins)
    rw [h.current id hid]
    rfl
  have hobj' : p.objection? o st = none := by
    rw [h.objection?_eq hq hopen (by rintro m rfl; exact hnew m hstates), hobj]
  exact ⟨p.advance.accept st, hp.readLine_eq_ok_iff.2 ⟨st, hst', hobj', rfl⟩,
    Continues.accept (q := q.advance) (p := p.advance)
      ⟨h.catalog, h.current⟩ hq.advance hopen⟩

end Progress

namespace Reading

variable {o : Options} {base : Catalog} {p q : Progress}
variable {lines : List (List Char)}

/-- **The first message whose identifier is taken** in a catalogue is defined
at `k`. -/
def FirstTaken (base : Catalog) (lines : List (List Char)) (k : Nat)
    (m : Message) : Prop :=
  LineAt lines k (States (.message m)) ∧ base.contains m.id = true
    ∧ ∀ i m', i < k → LineAt lines i (States (.message m')) →
      base.contains m'.id = false

/-- If some message has an identifier that is taken, there is a first one. -/
theorem exists_firstTaken
    (h : ∃ i m, LineAt lines i (States (.message m))
      ∧ base.contains m.id = true) : ∃ k m, FirstTaken base lines k m := by
  classical
  obtain ⟨m, hm, htaken⟩ := Nat.find_spec h
  refine ⟨Nat.find h, m, hm, htaken, fun i m' hi hm' => ?_⟩
  have hnot := Nat.find_min h hi
  exact Bool.eq_false_iff.2 fun htaken' => hnot ⟨m', hm', htaken'⟩

/-- **Lines that are read alone are read behind another text**, unless they
repeat a message of that text against the options. -/
theorem continues_of_readLines (hp : p.Coherent)
    (h : Progress.start.readLines o lines = .ok q) :
    (o.rejectRepeatedMessages = true → ∀ i m,
        LineAt lines i (States (.message m)) →
          p.catalog.contains m.id = false) →
      ∃ p', p.readLines o lines = .ok p'
        ∧ Progress.Continues p.catalog q p' := by
  refine Progress.readLines_induction
    (motive := fun lines q => (o.rejectRepeatedMessages = true → ∀ i m,
        LineAt lines i (States (.message m)) →
          p.catalog.contains m.id = false) →
      ∃ p', p.readLines o lines = .ok p' ∧ Progress.Continues p.catalog q p')
    (fun _ => ⟨p, rfl, Progress.continues_start p⟩) ?_ h
  intro lines q line q' hq ih hline hnew
  obtain ⟨p', hp', hcont⟩ := ih fun hreject i m hm =>
    hnew hreject i m (lineAt_append_singleton.2 (.inl hm))
  obtain ⟨hqc, -⟩ := Progress.coherent_start.of_readLines hq
  obtain ⟨hpc, -⟩ := hp.of_readLines hp'
  obtain ⟨p'', hp'', hcont'⟩ := hcont.readLine hqc hpc hline
    fun m hm hreject =>
      hnew hreject lines.length m (lineAt_append_cons.2 hm)
  refine ⟨p'', Progress.readLines_append_eq_ok_iff.2 ⟨p', hp', ?_⟩, hcont'⟩
  rwa [Progress.readLines_singleton]

/-- **Lines that are read alone stop behind another text** at the first message
that repeats one of that text, if this is to be refused. -/
theorem readLines_of_firstTaken (hp : p.Coherent)
    (hreject : o.rejectRepeatedMessages = true)
    (h : Progress.start.readLines o lines = .ok q) {k : Nat} {m : Message}
    (hfirst : FirstTaken p.catalog lines k m) :
    p.readLines o lines
      = .error (.atLine (p.lines + (k + 1)) (.repeatedMessage m.id)) := by
  obtain ⟨hm, htaken, hbefore⟩ := hfirst
  obtain ⟨front, line, back, rfl, rfl⟩ := exists_append_cons_of_lt hm.lt
  obtain ⟨r, hr, -⟩ := Progress.readLines_append_eq_ok_iff.1 h
  -- the lines in front repeat nothing and are read
  obtain ⟨p', hp', hcont⟩ := continues_of_readLines hp hr fun _ i m' hm' =>
    hbefore i m' hm'.lt ((lineAt_append_left hm'.lt).2 hm')
  obtain ⟨hpc, hcount⟩ := hp.of_readLines hp'
  have hst : Statement.ofLine p'.current.isSome line = .ok (.message m) := by
    have hstates := lineAt_append_cons.1 hm
    refine Statement.ofLine_eq_ok_iff.2 ⟨hstates, fun hbegins => ?_⟩
    exact absurd (hstates.kind.unique hbegins)
      Statement.messageKeyword_ne_signalKeyword
  have hobj : p'.objection? o (.message m) = some (.repeatedMessage m.id) := by
    rw [Progress.objection?_message_iff, hcont.catalog.contains_eq, htaken,
      Bool.or_true]
    exact ⟨hreject, rfl, rfl⟩
  refine Progress.readLines_eq_error_iff.2 ⟨front, line, back, p', rfl, hp', ?_⟩
  rw [← Nat.add_assoc, ← hcount]
  exact hpc.readLine_eq_error_iff.2 ⟨_, rfl, .inr ⟨_, hst, hobj⟩⟩

/-! ## Two texts -/

/-- **The lines of two texts** are those of the one and then those of the
other, if the first one is ended and the second does not begin with a byte
order mark, which would be in the midst of the whole. -/
theorem linesOf_append {front back : List Char}
    (hended : front = [] ∨ front.getLast? = some '\n')
    (hmark : front = [] ∨ back.head? ≠ some byteOrderMark) :
    linesOf (front ++ back) = linesOf front ++ linesOf back := by
  rw [linesOf_append_ended hended]
  unfold linesBehind
  split
  · rfl
  · next hempty =>
    rw [linesOf_of_head?_ne (hmark.resolve_left hempty)]

/-- Where nothing is repeated, or nothing is to be refused, the whole is read
and is the second catalogue laid over the first. -/
theorem exists_outcome_append {o : Options} {front back : List Char}
    {p q : Progress} (hlines : linesOf (front ++ back)
      = linesOf front ++ linesOf back)
    (hp : Progress.start.readLines o (linesOf front) = .ok p)
    (hq : Progress.start.readLines o (linesOf back) = .ok q)
    (hnew : o.rejectRepeatedMessages = true → ∀ i m,
      LineAt (linesOf back) i (States (.message m)) →
        p.catalog.contains m.id = false) :
    ∃ whole, (ofText o (front ++ back)).outcome = .ok whole
      ∧ whole.IsOverlay (q.catalog.restrict o.keeps)
        (p.catalog.restrict o.keeps) := by
  obtain ⟨hpc, -⟩ := Progress.coherent_start.of_readLines hp
  obtain ⟨p', hp', hcont⟩ := continues_of_readLines hpc hq hnew
  refine ⟨p'.catalog.restrict o.keeps, ?_, hcont.catalog.restrict o.keeps⟩
  refine outcome_ofText_eq_ok_iff.2 ⟨p', ?_, rfl⟩
  rw [hlines]
  exact Progress.readLines_append_eq_ok_iff.2 ⟨p, hp, hp'⟩

/-- **Two texts that are read alone are read together, and the second catalogue
lies over the first.** The first text is meant to be ended, and a byte order
mark at the front of the second is meant to stay at the front. No blank line is
needed between the two. If repeated messages are to be refused, and nothing is
selected, this is so as long as the catalogues have no identifier in common;
otherwise the second text stops at its first message whose identifier the first
catalogue has. -/
theorem texts_together (o : Options) (front back : List Char)
    (hended : front = [] ∨ front.getLast? = some '\n')
    (hmark : front = [] ∨ back.head? ≠ some byteOrderMark) (c d : Catalog)
    (hfront : (ofText o front).outcome = .ok c)
    (hback : (ofText o back).outcome = .ok d) :
    (o.rejectRepeatedMessages = false →
      ∃ whole, (ofText o (front ++ back)).outcome = .ok whole
        ∧ whole.IsOverlay d c)
    ∧ (o.rejectRepeatedMessages = true → o.onlyIds = none →
      ((∀ id, c.contains id = true → d.contains id = false) →
        ∃ whole, (ofText o (front ++ back)).outcome = .ok whole
          ∧ whole.IsOverlay d c)
      ∧ ∀ id, c.contains id = true → d.contains id = true →
        ∃ k m, FirstTaken c (linesOf back) k m
          ∧ (ofText o (front ++ back)).outcome
            = .error (.atLine
                ((Text.Lines.ofChars front).toList.length + (k + 1))
                (.repeatedMessage m.id))) := by
  obtain ⟨p, hp, rfl⟩ := outcome_ofText_eq_ok_iff.1 hfront
  obtain ⟨q, hq, rfl⟩ := outcome_ofText_eq_ok_iff.1 hback
  have hlines := linesOf_append hended hmark
  refine ⟨fun haccept => ?_, fun hreject hall => ⟨fun hdisjoint => ?_, ?_⟩⟩
  · refine exists_outcome_append hlines hp hq fun hreject => ?_
    exact absurd (haccept.symm.trans hreject) Bool.false_ne_true
  · refine exists_outcome_append hlines hp hq fun _ i m hm => ?_
    -- a message of the second text is in the second catalogue
    rw [Catalog.restrict_keeps hall, Catalog.restrict_keeps hall] at hdisjoint
    have hmem : q.catalog.contains m.id = true := by
      rw [Catalog.contains_eq_isSome]
      exact ((describes_of_readLines hq).isSome_get?_iff m.id).2 ⟨i, m, hm, rfl⟩
    refine Bool.eq_false_iff.2 fun htaken => ?_
    exact absurd (hmem.symm.trans (hdisjoint m.id htaken)) (by decide)
  · rw [Catalog.restrict_keeps hall, Catalog.restrict_keeps hall]
    intro id hc hd
    rw [Catalog.contains_eq_isSome] at hd
    obtain ⟨i, m, hm, rfl⟩ :=
      ((describes_of_readLines hq).isSome_get?_iff id).1 hd
    obtain ⟨k, m', hfirst⟩ := exists_firstTaken ⟨i, m, hm, hc⟩
    refine ⟨k, m', hfirst, outcome_ofText_eq_error_iff.2 ?_⟩
    obtain ⟨hpc, hcount⟩ := Progress.coherent_start.of_readLines hp
    have hlength : p.lines = (Text.Lines.ofChars front).toList.length := by
      rw [hcount, length_linesOf]
      exact Nat.zero_add _
    rw [hlines, Progress.readLines_append, hp, ← hlength]
    exact readLines_of_firstTaken hpc hreject hq hfirst

/-- A text of one message, whose identifier is a digit. The message is left
open. -/
def oneMessage (digit : Char) : List Char :=
  ['B', 'O', '_', ' ', digit, ' ', 'a', ':', ' ', '8', ' ', 'b', '\n']

/-- Three texts of one message each: the later definition counts; two
identifiers are never at odds; and one of them twice is refused in the second
line, if it is to be refused. -/
theorem texts_together_oneMessage :
    (∃ c d whole, (ofText .default (oneMessage '1')).outcome = .ok c
      ∧ (ofText .default (oneMessage '1')).outcome = .ok d
      ∧ (ofText .default (oneMessage '1' ++ oneMessage '1')).outcome = .ok whole
      ∧ whole.IsOverlay d c)
    ∧ (∃ c d whole, (ofText .strict (oneMessage '1')).outcome = .ok c
      ∧ (ofText .strict (oneMessage '2')).outcome = .ok d
      ∧ (ofText .strict (oneMessage '1' ++ oneMessage '2')).outcome = .ok whole
      ∧ whole.IsOverlay d c)
    ∧ ∃ c k m, FirstTaken c (linesOf (oneMessage '1')) k m
      ∧ (ofText .strict (oneMessage '1' ++ oneMessage '1')).outcome
        = .error (.atLine (1 + (k + 1)) (.repeatedMessage m.id)) := by
  have hended : (oneMessage '1').getLast? = some '\n' := by decide
  have hmark : ∀ digit, (oneMessage digit).head? ≠ some byteOrderMark :=
    fun _ h => absurd (Option.some.inj h) (by decide)
  obtain ⟨c, hc, -⟩ : ∃ c, (ofText .default (oneMessage '1')).outcome = .ok c
      ∧ c.contains 1 = true := Except.exists_of_any (by decide +kernel)
  obtain ⟨d, hd, hdids⟩ : ∃ d, (ofText .strict (oneMessage '1')).outcome = .ok d
      ∧ (d.ids == [1]) = true := Except.exists_of_any (by decide +kernel)
  obtain ⟨e, he, heids⟩ : ∃ e, (ofText .strict (oneMessage '2')).outcome = .ok e
      ∧ (e.ids == [2]) = true := Except.exists_of_any (by decide +kernel)
  have hdmem : ∀ id, d.contains id = true ↔ id = 1 := fun id => by
    rw [← Catalog.mem_ids, beq_iff_eq.1 hdids, List.mem_singleton]
  have hemem : ∀ id, e.contains id = true ↔ id = 2 := fun id => by
    rw [← Catalog.mem_ids, beq_iff_eq.1 heids, List.mem_singleton]
  refine ⟨?_, ?_, ?_⟩
  · obtain ⟨whole, hwhole, hover⟩ := (texts_together .default _ _ (.inr hended)
      (.inr (hmark '1')) c c hc hc).1 rfl
    exact ⟨c, c, whole, hc, hc, hwhole, hover⟩
  · have hdisjoint : ∀ id, d.contains id = true → e.contains id = false := by
      intro id hid
      rw [(hdmem id).1 hid]
      exact Bool.eq_false_iff.2 fun h => absurd ((hemem 1).1 h) (by decide)
    obtain ⟨whole, hwhole, hover⟩ := ((texts_together .strict _ _ (.inr hended)
      (.inr (hmark '2')) d e hd he).2 rfl rfl).1 hdisjoint
    exact ⟨d, e, whole, hd, he, hwhole, hover⟩
  · have hmem : d.contains 1 = true := (hdmem 1).2 rfl
    obtain ⟨k, m, hfirst, herror⟩ := ((texts_together .strict _ _ (.inr hended)
      (.inr (hmark '1')) d d hd hd).2 rfl rfl).2 1 hmem hmem
    exact ⟨d, k, m, hfirst, herror⟩

end Reading

end CanCatalog
