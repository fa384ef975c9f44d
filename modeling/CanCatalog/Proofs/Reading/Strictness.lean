import CanCatalog.Proofs.Reading.Meaning

/-!
# Checks and where they stop a reading

The checks that can be asked for are conditions on the text. That an identifier
occurs before, that a name occurs before behind the same message, that the
limits of a signal are the wrong way round: each of these is seen in the lines
(`Violates`), and what a reading has stored does not come into it.

A check does not change what is read, it only stops. So a reading with checks
is the reading without them up to the first line that violates one; there it
ends with the fault of that line, and if no line does, it ends as the other
one does. Lines behind the one where the reading without checks fails are not
looked at in either.
-/

namespace CanCatalog

/-- **The options without the checks.** The selection is the same. -/
def Options.permissive (o : Options) : Options :=
  ((o.rejectingMessages false).rejectingSignals false).checkingRanges false

namespace Reading

open Statement (Begins States WellFormed messageKeyword signalKeyword)

variable {o : Options} {lines back : List (List Char)} {line : List Char}

/-! ## Behind a message -/

/-- **The line at `k` comes after the message at `j`**, and no message is
between them. Blank lines may be. -/
def Follows (lines : List (List Char)) (j k : Nat) : Prop :=
  LineAt lines j (Begins messageKeyword) ∧ j < k
    ∧ ∀ i, j < i → i < k → ¬ LineAt lines i (Begins messageKeyword)

theorem Follows.unique {j j' k : Nat} (h : Follows lines j k)
    (h' : Follows lines j' k) : j = j' := by
  rcases Nat.lt_trichotomy j j' with hlt | heq | hlt
  · exact absurd h'.1 (h.2.2 j' hlt h'.2.1)
  · exact heq
  · exact absurd h.1 (h'.2.2 j hlt h.2.1)

/-- What a line follows does not depend on what comes behind it. -/
theorem follows_append_left {j k : Nat} (hk : k ≤ lines.length) :
    Follows (lines ++ back) j k ↔ Follows lines j k := by
  unfold Follows
  constructor
  · rintro ⟨hj, hlt, hnone⟩
    refine ⟨(lineAt_append_left (by omega)).1 hj, hlt, ?_⟩
    intro i hji hik hi
    exact hnone i hji hik ((lineAt_append_left hi.lt).2 hi)
  · rintro ⟨hj, hlt, hnone⟩
    refine ⟨(lineAt_append_left (by omega)).2 hj, hlt, ?_⟩
    intro i hji hik hi
    exact hnone i hji hik ((lineAt_append_left (by omega)).1 hi)

/-- A new line follows the message whose block has not ended. -/
theorem Unended.follows {j : Nat} (h : Unended lines j) :
    Follows (lines ++ back) j lines.length := by
  rw [follows_append_left (Nat.le_refl _)]
  exact ⟨h.1, h.1.lt, fun i hji _ hi => h.2 i hji (hi.imp fun _ => .inl)⟩

/-- Behind a message whose block has not ended, all lines are in that block. -/
theorem Unended.inBlock_of_follows {j i : Nat} (h : Unended lines j)
    (hfollows : Follows lines j i) (hi : i < lines.length) :
    InBlock lines j i :=
  ⟨h.1, hfollows.2.1, hi, fun k hjk _ => h.2 k hjk⟩

/-! ## Violations -/

/-- **The line at `k` violates one of the checks that are asked for**, and this
is the fault. -/
inductive Violates (o : Options) (lines : List (List Char)) (k : Nat) :
    Fault → Prop where
  /-- A message whose identifier an earlier message carries. -/
  | repeatedMessage {m m' : Message} {i : Nat}
    (asked : o.rejectRepeatedMessages = true)
    (here : LineAt lines k (States (.message m))) (earlier : i < k)
    (there : LineAt lines i (States (.message m'))) (same : m'.id = m.id) :
    Violates o lines k (.repeatedMessage m.id)
  /-- A signal whose least value is above the largest. -/
  | emptyRange {s : Signal} (asked : o.checkRanges = true)
    (here : LineAt lines k (States (.signal s)))
    (above : s.minimum.above s.maximum = true) :
    Violates o lines k (.emptyRange s.name s.minimum s.maximum)
  /-- A signal whose name an earlier signal has behind the same message. -/
  | repeatedSignal {s s' : Signal} {m : Message} {i j : Nat}
    (asked : o.rejectRepeatedSignals = true)
    (here : LineAt lines k (States (.signal s))) (earlier : i < k)
    (there : LineAt lines i (States (.signal s'))) (same : s'.name = s.name)
    (follows_here : Follows lines j k) (follows_there : Follows lines j i)
    (message : LineAt lines j (States (.message m))) :
    Violates o lines k (.repeatedSignal m.id s.name)

/-- **The fault that is reported** of a line: the empty range if it has one,
and otherwise the only one that there is. -/
def Reported (o : Options) (lines : List (List Char)) (k : Nat)
    (fault : Fault) : Prop :=
  Violates o lines k fault
    ∧ ∀ name minimum maximum,
      Violates o lines k (.emptyRange name minimum maximum) →
        fault = .emptyRange name minimum maximum

theorem Violates.lt {k : Nat} {fault : Fault} (h : Violates o lines k fault) :
    k < lines.length := by
  cases h with
  | repeatedMessage _ here => exact here.lt
  | emptyRange _ here => exact here.lt
  | repeatedSignal _ here => exact here.lt

/-- A violation remains one, whatever comes behind it. -/
theorem Violates.append {k : Nat} {fault : Fault} (h : Violates o lines k fault)
    (back : List (List Char)) : Violates o (lines ++ back) k fault := by
  cases h with
  | repeatedMessage asked here earlier there same =>
    exact .repeatedMessage asked ((lineAt_append_left here.lt).2 here) earlier
      ((lineAt_append_left there.lt).2 there) same
  | emptyRange asked here above =>
    exact .emptyRange asked ((lineAt_append_left here.lt).2 here) above
  | repeatedSignal asked here earlier there same hk hi message =>
    exact .repeatedSignal asked ((lineAt_append_left here.lt).2 here) earlier
      ((lineAt_append_left there.lt).2 there) same
      ((follows_append_left (Nat.le_of_lt here.lt)).2 hk)
      ((follows_append_left (Nat.le_of_lt there.lt)).2 hi)
      ((lineAt_append_left message.lt).2 message)

/-! ## What the options object to -/

/-- A message violates what it violates by the identifiers that are stored. -/
theorem Describes.violates_message_iff {p : Progress} (h : Describes lines p)
    {m : Message} (hst : States (.message m) line) {fault : Fault} :
    Violates o (lines ++ line :: back) lines.length fault
      ↔ o.rejectRepeatedMessages = true ∧ p.catalog.contains m.id = true
        ∧ fault = .repeatedMessage m.id := by
  rw [Catalog.contains_eq_isSome, h.isSome_get?_iff]
  constructor
  · rintro (⟨asked, here, earlier, there, same⟩ | ⟨-, here, -⟩ | ⟨-, here⟩)
    · obtain rfl :=
        Statement.message.inj ((lineAt_append_cons.1 here).unique hst)
      exact ⟨asked, ⟨_, _, (lineAt_append_left earlier).1 there, same⟩, rfl⟩
    · exact Statement.noConfusion ((lineAt_append_cons.1 here).unique hst)
    · exact Statement.noConfusion ((lineAt_append_cons.1 here).unique hst)
  · rintro ⟨asked, ⟨i, m', hm', hid⟩, rfl⟩
    exact .repeatedMessage asked (lineAt_append_cons.2 hst) hm'.lt
      ((lineAt_append_left hm'.lt).2 hm') hid

/-- A signal violates what it violates by its limits and by the names in the
message that is being defined. -/
theorem Holds.violates_signal_iff {j : Nat} {m M : Message}
    (hholds : Holds lines j m M) (hopen : Unended lines j)
    (hm : LineAt lines j (States (.message m))) {s : Signal}
    (hst : States (.signal s) line) {fault : Fault} :
    Violates o (lines ++ line :: back) lines.length fault
      ↔ (o.checkRanges = true ∧ s.minimum.above s.maximum = true
          ∧ fault = .emptyRange s.name s.minimum s.maximum)
        ∨ o.rejectRepeatedSignals = true ∧ M.signals.contains s.name = true
          ∧ fault = .repeatedSignal m.id s.name := by
  rw [hholds.contains_iff]
  constructor
  · rintro (⟨-, here, -⟩ | ⟨asked, here, above⟩ |
      ⟨asked, here, earlier, there, same, hk, hi, message⟩)
    · exact Statement.noConfusion ((lineAt_append_cons.1 here).unique hst)
    · obtain rfl :=
        Statement.signal.inj ((lineAt_append_cons.1 here).unique hst)
      exact .inl ⟨asked, above, rfl⟩
    · obtain rfl :=
        Statement.signal.inj ((lineAt_append_cons.1 here).unique hst)
      obtain rfl := hk.unique hopen.follows
      have hmm := ((lineAt_append_left hm.lt).1 message).states_unique hm
      obtain rfl := Statement.message.inj hmm
      have hblock := hopen.inBlock_of_follows
        ((follows_append_left (Nat.le_of_lt earlier)).1 hi) earlier
      exact .inr ⟨asked,
        ⟨_, _, hblock, (lineAt_append_left earlier).1 there, same⟩, rfl⟩
  · rintro (⟨asked, above, rfl⟩ | ⟨asked, ⟨i, s', hblock, hs', hname⟩, rfl⟩)
    · exact .emptyRange asked (lineAt_append_cons.2 hst) above
    · have hfollows : Follows lines j i :=
        ⟨hm.imp fun _ hst => hst.kind, hblock.2.1, fun k hjk _ hk =>
          hopen.2 k hjk (hk.imp fun _ => .inl)⟩
      exact .repeatedSignal asked (lineAt_append_cons.2 hst) hs'.lt
        ((lineAt_append_left hs'.lt).2 hs') hname hopen.follows
        ((follows_append_left (Nat.le_of_lt hs'.lt)).2 hfollows)
        ((lineAt_append_left hm.lt).2 hm)

/-- The message that is being defined, as it is stored. -/
theorem Describes.exists_currentMessage? {p : Progress} (h : Describes lines p)
    (hcur : p.current.isSome = true) :
    ∃ j m M, Unended lines j ∧ LineAt lines j (States (.message m))
      ∧ Holds lines j m M ∧ p.currentMessage? = some (m.id, M) := by
  obtain ⟨id, hid⟩ := Option.isSome_iff_exists.1 hcur
  obtain ⟨j, m, hopen, hm, rfl⟩ := (h.current_iff id).1 hid
  obtain ⟨M, hM, hholds⟩ := h.stored j m (hopen.lastMessage hm)
  refine ⟨j, m, M, hopen, hm, hholds, ?_⟩
  unfold Progress.currentMessage?
  rw [hid, Option.bind_some, hM]
  rfl

/-- A line that defines nothing violates nothing. -/
theorem not_violates {k : Nat}
    (hm : ∀ m, ¬ LineAt lines k (States (.message m)))
    (hs : ∀ s, ¬ LineAt lines k (States (.signal s))) (fault : Fault) :
    ¬ Violates o lines k fault := by
  rintro (⟨-, here⟩ | ⟨-, here, -⟩ | ⟨-, here⟩)
  · exact hm _ here
  · exact hs _ here
  · exact hs _ here

/-- What is reported of a message. -/
theorem Describes.reported_message_iff {p : Progress} (h : Describes lines p)
    {m : Message} (hst : States (.message m) line) (fault : Fault) :
    Reported o (lines ++ line :: back) lines.length fault
      ↔ p.objection? o (.message m) = some fault := by
  rw [Progress.objection?_message_iff]
  unfold Reported
  simp only [h.violates_message_iff hst]
  constructor
  · exact fun hreported => hreported.1
  · exact fun hobj =>
      ⟨hobj, fun _ _ _ hrange => Fault.noConfusion hrange.2.2⟩

/-- What is reported of a signal. -/
theorem Holds.reported_signal_iff {j : Nat} {m M : Message}
    (hholds : Holds lines j m M) (hopen : Unended lines j)
    (hm : LineAt lines j (States (.message m))) {p : Progress}
    (hcur : p.currentMessage? = some (m.id, M)) {s : Signal}
    (hst : States (.signal s) line) (fault : Fault) :
    Reported o (lines ++ line :: back) lines.length fault
      ↔ p.objection? o (.signal s) = some fault := by
  rw [Progress.objection?_signal_iff hcur]
  unfold Reported
  simp only [hholds.violates_signal_iff hopen hm hst]
  constructor
  · rintro ⟨⟨hasked, habove, heq⟩ | hname, hfirst⟩
    · exact .inl ⟨⟨hasked, habove⟩, heq⟩
    · by_cases hrange : o.checkRanges = true
          ∧ s.minimum.above s.maximum = true
      · have heq := hfirst _ _ _ (.inl ⟨hrange.1, hrange.2, rfl⟩)
        exact .inl ⟨hrange, heq⟩
      · exact .inr ⟨hrange, hname⟩
  · rintro (⟨⟨hasked, habove⟩, heq⟩ | ⟨hrange, hname⟩)
    · refine ⟨.inl ⟨hasked, habove, heq⟩, ?_⟩
      rintro _ _ _ (⟨-, -, heq'⟩ | ⟨-, -, heq'⟩)
      · exact heq.trans heq'.symm
      · exact Fault.noConfusion heq'
    · refine ⟨.inr hname, ?_⟩
      rintro _ _ _ (⟨hasked, habove, -⟩ | ⟨-, -, heq'⟩)
      · exact absurd ⟨hasked, habove⟩ hrange
      · exact Fault.noConfusion heq'

/-- **What is reported of a line is what the options object to in its
statement.** -/
theorem Describes.reported_iff {p : Progress} (h : Describes lines p)
    {st : Statement} (hst : Statement.ofLine p.current.isSome line = .ok st)
    (fault : Fault) :
    Reported o (lines ++ line :: back) lines.length fault
      ↔ p.objection? o st = some fault := by
  obtain ⟨hstates, hplace⟩ := Statement.ofLine_eq_ok_iff.1 hst
  have hnot : (∀ m, st ≠ .message m) → (∀ s, st ≠ .signal s) →
      ¬ Reported o (lines ++ line :: back) lines.length fault := by
    rintro hm hs ⟨hv, -⟩
    refine not_violates (fun m hm' => ?_) (fun s hs' => ?_) fault hv
    · exact hm m (hstates.unique (lineAt_append_cons.1 hm'))
    · exact hs s (hstates.unique (lineAt_append_cons.1 hs'))
  cases st with
  | blank =>
    refine iff_of_false ?_ (by simp [Progress.objection?])
    exact hnot (fun _ => Statement.noConfusion) fun _ => Statement.noConfusion
  | other =>
    refine iff_of_false ?_ (by simp [Progress.objection?])
    exact hnot (fun _ => Statement.noConfusion) fun _ => Statement.noConfusion
  | message m => exact h.reported_message_iff hstates fault
  | signal s =>
    obtain ⟨j, m, M, hopen, hm, hholds, hcur⟩ :=
      h.exists_currentMessage? (hplace hstates.kind)
    exact hholds.reported_signal_iff hopen hm hcur hstates fault

/-- **Of every line that violates a check a fault is reported.** -/
theorem Violates.exists_reported {k : Nat} {fault : Fault}
    (h : Violates o lines k fault) : ∃ fault', Reported o lines k fault' := by
  by_cases hrange : ∃ name minimum maximum,
      Violates o lines k (.emptyRange name minimum maximum)
  · obtain ⟨name, minimum, maximum, hv⟩ := hrange
    refine ⟨_, hv, fun name' minimum' maximum' hv' => ?_⟩
    -- one line has one signal, and this has one name and one range
    cases hv with
    | emptyRange _ here _ =>
      cases hv' with
      | emptyRange _ here' _ =>
        obtain rfl := Statement.signal.inj (here.states_unique here')
        rfl
  · exact ⟨fault, h, fun name minimum maximum hv =>
      absurd ⟨name, minimum, maximum, hv⟩ hrange⟩

/-! ## Two readings of the same lines -/

/-- **Where no check is violated, a reading with checks arrives where the one
without them does.** -/
theorem readLines_of_permissive {p : Progress}
    (h : Progress.start.readLines o.permissive lines = .ok p) :
    (∀ k fault, ¬ Violates o lines k fault) →
      Progress.start.readLines o lines = .ok p := by
  refine Progress.readLines_induction
    (motive := fun lines p => (∀ k fault, ¬ Violates o lines k fault) →
      Progress.start.readLines o lines = .ok p) (fun _ => rfl) ?_ h
  intro lines q line r hq ih hr hnone
  obtain ⟨hcoh, -⟩ := Progress.coherent_start.of_readLines hq
  obtain ⟨st, hst, -, rfl⟩ := hcoh.readLine_eq_ok_iff.1 hr
  have hobj : q.objection? o st = none := by
    rw [Option.eq_none_iff_forall_ne_some]
    intro fault hfault
    have hreported : Reported o (lines ++ [line]) lines.length fault :=
      ((describes_of_readLines hq).reported_iff hst fault).2 hfault
    exact hnone _ fault hreported.1
  refine Progress.readLines_append_eq_ok_iff.2 ⟨q, ?_, ?_⟩
  · exact ih fun k fault hv => hnone k fault (hv.append [line])
  · rw [Progress.readLines_singleton]
    exact hcoh.readLine_eq_ok_iff.2 ⟨st, hst, hobj, rfl⟩

/-- **A line that is faulty without checks is faulty with them**, and for the
same reason. -/
theorem readLine_error_of_permissive {p : Progress} (hcoh : p.Coherent)
    {e : ReadError} (h : p.readLine o.permissive line = .error e) :
    p.readLine o line = .error e := by
  obtain ⟨fault, rfl, hfault⟩ := hcoh.readLine_eq_error_iff.1 h
  refine hcoh.readLine_eq_error_iff.2 ⟨fault, rfl, ?_⟩
  rcases hfault with hfault | ⟨st, -, hobj⟩
  · exact .inl hfault
  · rw [Progress.objection?_eq_none rfl rfl rfl] at hobj
    exact absurd hobj (by simp)

/-- **Without violations the two readings are the same**, errors included. The
lines from the one on where the reading without checks fails do not count. -/
theorem readLines_eq_permissive
    (h : ∀ k fault, (∀ e n,
        Progress.start.readLines o.permissive lines = .error e →
          e.line? = some n → k + 1 < n) →
      ¬ Violates o lines k fault) :
    Progress.start.readLines o lines
      = Progress.start.readLines o.permissive lines := by
  cases hp : Progress.start.readLines o.permissive lines with
  | ok p =>
    refine readLines_of_permissive hp fun k fault => h k fault fun e n he => ?_
    exact absurd (hp.symm.trans he) (by simp)
  | error e =>
    obtain ⟨front, line, back, p, fault, rfl, hfront, hline, rfl⟩ :=
      exists_of_readLines_eq_error hp
    obtain ⟨hcoh, -⟩ := Progress.coherent_start.of_readLines hfront
    have hread : Progress.start.readLines o front = .ok p := by
      refine readLines_of_permissive hfront fun k fault' hv => ?_
      refine h k fault' (fun e n he hn => ?_) (hv.append _)
      -- a line that violates a check in front of the faulty one is before it
      obtain rfl := Except.error.inj (hp.symm.trans he)
      obtain rfl := Option.some.inj hn
      exact Nat.succ_lt_succ hv.lt
    exact Progress.readLines_eq_error_iff.2 ⟨front, line, back, p, rfl, hread,
      readLine_error_of_permissive hcoh hline⟩

/-- **The first violation stops the reading with checks**, if the one without
them goes on. -/
theorem readLines_of_reported {k : Nat} {fault : Fault}
    (hbefore : ∀ e n, Progress.start.readLines o.permissive lines = .error e →
      e.line? = some n → k + 1 < n)
    (hfirst : ∀ i fault, i < k → ¬ Violates o lines i fault)
    (hreported : Reported o lines k fault) :
    Progress.start.readLines o lines = .error (.atLine (k + 1) fault) := by
  obtain ⟨r, hr⟩ := exists_readLines_take hbefore
  obtain ⟨front, line, back, rfl, rfl⟩ :=
    exists_append_cons_of_lt hreported.1.lt
  rw [take_append_cons] at hr
  obtain ⟨p, hp, hline⟩ := Progress.readLines_append_eq_ok_iff.1 hr
  have hread : Progress.start.readLines o front = .ok p :=
    readLines_of_permissive hp fun i fault' hv =>
      hfirst i fault' hv.lt (hv.append _)
  refine Progress.readLines_eq_error_iff.2
    ⟨front, line, back, p, rfl, hread, ?_⟩
  -- what the line states is objected to
  obtain ⟨hcoh, hlines⟩ := Progress.of_readLines_start hp
  rw [Progress.readLines_singleton] at hline
  obtain ⟨st, hst, -, -⟩ := hcoh.readLine_eq_ok_iff.1 hline
  have hobj := ((describes_of_readLines hp).reported_iff hst fault).1 hreported
  rw [← hlines]
  exact hcoh.readLine_eq_error_iff.2 ⟨fault, rfl, .inr ⟨st, hst, hobj⟩⟩

/-! ## Two readings of the same text -/

/-- **The line at `k` is before the one at which the reading without checks
fails.** If that reading does not fail, all lines are. -/
def BeforeFailure (o : Options) (text : List Char) (k : Nat) : Prop :=
  ∀ e n, (ofText o.permissive text).outcome = .error e → e.line? = some n →
    k + 1 < n

/-- **Checks stop a reading at the first violation and do nothing else.** Of
the lines before the one at which the reading without checks fails, either none
violates a check, and then the outcome with checks is the outcome without them;
or the reading with checks stops at the first that does, with the fault that is
reported of it. -/
theorem stops_at_first_violation (o : Options) (text : List Char) :
    ((∀ k fault, BeforeFailure o text k →
        ¬ Violates o (linesOf text) k fault) →
      (ofText o text).outcome = (ofText o.permissive text).outcome)
    ∧ ∀ k, BeforeFailure o text k →
      (∃ fault, Violates o (linesOf text) k fault) →
      (∀ i fault, i < k → ¬ Violates o (linesOf text) i fault) →
        (∃ fault, Reported o (linesOf text) k fault)
        ∧ ∀ fault, Reported o (linesOf text) k fault →
          (ofText o text).outcome = .error (.atLine (k + 1) fault) := by
  have hbefore : ∀ k, BeforeFailure o text k ↔ ∀ e n,
      Progress.start.readLines o.permissive (linesOf text) = .error e →
        e.line? = some n → k + 1 < n := by
    intro k
    unfold BeforeFailure
    simp only [outcome_ofText_eq_error_iff]
  constructor
  · intro h
    have hread := readLines_eq_permissive fun k fault hk =>
      h k fault ((hbefore k).2 hk)
    rw [outcome_ofText, outcome_ofText, hread]
    rfl
  · rintro k hk ⟨fault, hv⟩ hfirst
    refine ⟨hv.exists_reported, fun fault' hreported => ?_⟩
    rw [outcome_ofText_eq_error_iff]
    exact readLines_of_reported ((hbefore k).1 hk) hfirst hreported

end Reading

end CanCatalog
