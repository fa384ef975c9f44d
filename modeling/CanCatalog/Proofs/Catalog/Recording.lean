import CanCatalog.Proofs.Catalog.Query

/-!
# Recording values

A decoder records the values it saw, one after the other and each under an
identifier and a name. The same signal may be addressed many times, and what is
addressed need not be there. All of this should leave nothing behind but the last
value of each signal, although a signal lies two tables deep and both tables are
put together anew with every value.

The proof goes through a change of a more general kind. Every signal is changed in
its place, by a function of its identifier, its name and what it was before
(`Catalog.mapSignals`). Such a change keeps whatever is asked about identifiers,
names and numbers of things, whichever function it is; two changes, one after the
other, are one; and recording is a change of this kind, however many values there
are (`Catalog.recordAll_eq_mapSignals`). So no table is left in what remains to be
proved: it is about one signal and a list of values.
-/

namespace CanCatalog

/-- A value to record, or the wish that none is recorded, with the identifier and
the name of the signal. -/
abbrev Write := UInt32 × String × Option Number

/-! ## Changes of signals in their places -/

namespace Message

variable {m : Message}

/-- **Changes each signal in its place**, given the name it is stored under. -/
def mapSignals (m : Message) (f : String → Signal → Signal) : Message :=
  { m with signals := m.signals.map f }

@[simp] theorem signal?_mapSignals (m : Message) (f : String → Signal → Signal)
    (name : String) :
    (m.mapSignals f).signal? name = (m.signal? name).map (f name) :=
  Std.ExtTreeMap.getElem?_map

@[simp] theorem names_mapSignals (m : Message) (f : String → Signal → Signal) :
    (m.mapSignals f).names = m.names :=
  congrArg ascending Std.ExtTreeMap.keys_map

/-- Two changes are one. -/
theorem mapSignals_mapSignals (m : Message) (f g : String → Signal → Signal) :
    (m.mapSignals f).mapSignals g
      = m.mapSignals fun name s => g name (f name s) :=
  congrArg (fun signals => { m with signals := signals })
    Std.ExtTreeMap.map_map

/-- Messages are the same if they differ in signals at most and have the same
ones. -/
theorem eq_of_signal?_eq {signals : SignalTable}
    (h : ∀ name, m.signal? name = signals[name]?) :
    m = { m with signals := signals } :=
  congrArg (fun signals => { m with signals := signals })
    (Std.ExtTreeMap.ext_getElem? h)

/-- A change that changes no signal is none. -/
theorem mapSignals_eq_self {f : String → Signal → Signal}
    (h : ∀ name s, m.signal? name = some s → f name s = s) :
    m.mapSignals f = m := by
  refine (eq_of_signal?_eq fun name => ?_).symm
  show _ = (m.mapSignals f).signal? name
  rw [signal?_mapSignals]
  cases hs : m.signal? name with
  | none => rfl
  | some s => exact congrArg some (h name s hs).symm

/-- **Recording a value is a change in place.** -/
theorem record_eq_mapSignals (m : Message) (key : String)
    (value : Option Number) :
    m.record key value
      = m.mapSignals fun name s =>
        if key = name then s.withValue value else s := by
  refine congrArg (fun signals => { m with signals := signals })
    (Std.ExtTreeMap.ext_getElem? fun name => ?_)
  simp only [Std.ExtTreeMap.getElem?_modify, Std.ExtTreeMap.getElem?_map,
    Std.LawfulEqCmp.compare_eq_iff_eq]
  split
  · next hname => rw [hname]
  · exact Option.map_id'.symm

end Message

namespace Catalog

variable {c : Catalog} {f : UInt32 → String → Signal → Signal}

/-- **Changes each signal in its place**, given the identifier and the name it is
stored under. -/
def mapSignals (c : Catalog) (f : UInt32 → String → Signal → Signal) :
    Catalog :=
  ⟨c.messages.map fun id m => m.mapSignals (f id)⟩

@[simp] theorem get?_mapSignals (c : Catalog)
    (f : UInt32 → String → Signal → Signal) (id : UInt32) :
    (c.mapSignals f).get? id = (c.get? id).map fun m => m.mapSignals (f id) :=
  Std.ExtTreeMap.getElem?_map

/-- **A signal is found as it was changed.** -/
@[simp] theorem signal?_mapSignals (c : Catalog)
    (f : UInt32 → String → Signal → Signal) (id : UInt32) (name : String) :
    (c.mapSignals f).signal? id name = (c.signal? id name).map (f id name) := by
  unfold signal?
  rw [get?_mapSignals]
  cases c.get? id with
  | none => rfl
  | some m => exact m.signal?_mapSignals (f id) name

/-- **Two changes are one.** -/
theorem mapSignals_mapSignals (c : Catalog)
    (f g : UInt32 → String → Signal → Signal) :
    (c.mapSignals f).mapSignals g
      = c.mapSignals fun id name s => g id name (f id name s) := by
  refine ext_get? fun id => ?_
  rw [get?_mapSignals, get?_mapSignals, get?_mapSignals, Option.map_map]
  congr 1
  funext m
  exact m.mapSignals_mapSignals (f id) (g id)

/-- **A change that changes no signal is none.** -/
theorem mapSignals_eq_self
    (h : ∀ id name s, c.signal? id name = some s → f id name s = s) :
    c.mapSignals f = c := by
  refine ext_get? fun id => ?_
  rw [get?_mapSignals]
  cases hm : c.get? id with
  | none => rfl
  | some m =>
    refine congrArg some (Message.mapSignals_eq_self fun name s hs => ?_)
    exact h id name s (Option.bind_eq_some_iff.2 ⟨m, hm, hs⟩)

/-! ## What a change in place keeps -/

@[simp] theorem ids_mapSignals (c : Catalog)
    (f : UInt32 → String → Signal → Signal) : (c.mapSignals f).ids = c.ids :=
  congrArg ascending Std.ExtTreeMap.keys_map

@[simp] theorem size_mapSignals (c : Catalog)
    (f : UInt32 → String → Signal → Signal) : (c.mapSignals f).size = c.size :=
  Std.ExtTreeMap.size_map

/-- A catalogue is empty if its size is zero. -/
theorem isEmpty_eq_size (c : Catalog) : c.isEmpty = (c.size == 0) :=
  Std.ExtTreeMap.isEmpty_eq_size_beq_zero

/-- **What is selected of messages without regard to their signals** is the same
before and after. -/
theorem filterMap_mapSignals {α : Type} (k : Message → Option α)
    (hk : ∀ m g, k (Message.mapSignals m g) = k m) (c : Catalog)
    (f : UInt32 → String → Signal → Signal) :
    ((c.mapSignals f).toList.filterMap k).Perm (c.toList.filterMap k) := by
  refine ((c.mapSignals f).filterMap_toList k).trans
    (.trans (.of_eq ?_) (c.filterMap_toList k).symm)
  rw [ids_mapSignals]
  congr 1
  funext id
  rw [get?_mapSignals]
  cases c.get? id with
  | none => rfl
  | some m => exact hk m (f id)

/-- **The numbers of messages and of signals are the same.** -/
@[simp] theorem extent_mapSignals (c : Catalog)
    (f : UInt32 → String → Signal → Signal) :
    (c.mapSignals f).extent = c.extent := by
  have hsignals : (c.mapSignals f).extent.signals = c.extent.signals := by
    rw [extent_signals, extent_signals, ← List.filterMap_eq_map]
    refine (filterMap_mapSignals _ (fun m g => ?_) c f).sum_eq
    exact congrArg (fun names => some names.length) (m.names_mapSignals g)
  show Extent.mk (c.mapSignals f).size (c.mapSignals f).extent.signals = _
  rw [size_mapSignals, hsignals]
  rfl

/-- The identifiers in whose messages a signal occurs, before they are sorted. -/
theorem map_fst_occurrences_perm (c : Catalog) (name : String) :
    ((c.occurrences name).map Prod.fst).Perm
      (c.toList.filterMap fun m => (m.signal? name).map fun _ => m.id) := by
  refine ((c.occurrences_perm name).map Prod.fst).trans (.of_eq ?_)
  rw [List.map_filterMap]
  congr 1
  funext m
  exact Option.map_map _ _ _

/-- **A signal occurs in the same messages**, in the same order. -/
theorem map_fst_occurrences_mapSignals (c : Catalog)
    (f : UInt32 → String → Signal → Signal) (name : String) :
    ((c.mapSignals f).occurrences name).map Prod.fst
      = (c.occurrences name).map Prod.fst := by
  have hsorted (d : Catalog) :
      ((d.occurrences name).map Prod.fst).Pairwise (· ≤ ·) :=
    List.pairwise_map.2 (d.pairwise_occurrences name)
  refine List.Perm.eq_of_pairwise (fun _ _ _ _ => UInt32.le_antisymm)
    (hsorted _) (hsorted c) ?_
  refine ((c.mapSignals f).map_fst_occurrences_perm name).trans
    ((filterMap_mapSignals _ (fun m g => ?_) c f).trans
      (c.map_fst_occurrences_perm name).symm)
  rw [Message.signal?_mapSignals, Option.map_map]
  rfl

/-! ## Recording as a change in place -/

/-- **What a write makes of a signal**, which is left as it is if another one is
addressed. -/
def written (id : UInt32) (name : String) (s : Signal) (w : Write) : Signal :=
  if w.1 = id ∧ w.2.1 = name then s.withValue w.2.2 else s

/-- **What was written last** under an identifier and a name, if anything was. -/
def lastWritten? (writes : List Write) (id : UInt32) (name : String) :
    Option (Option Number) :=
  (writes.reverse.find? fun w => w.1 = id ∧ w.2.1 = name).map fun w => w.2.2

/-- One more write comes last if it is for this signal. -/
theorem lastWritten?_append_singleton (writes : List Write) (w : Write)
    (id : UInt32) (name : String) :
    lastWritten? (writes ++ [w]) id name
      = if w.1 = id ∧ w.2.1 = name then some w.2.2
        else lastWritten? writes id name := by
  unfold lastWritten?
  rw [List.reverse_append]
  show (List.find? _ (w :: writes.reverse)).map _ = _
  rw [List.find?_cons]
  by_cases hw : w.1 = id ∧ w.2.1 = name
  · rw [decide_eq_true hw, if_pos hw]
    rfl
  · rw [decide_eq_false hw, if_neg hw]

/-- **Recording a value is a change in place.** -/
theorem record_eq_mapSignals (c : Catalog) (w : Write) :
    c.record w.1 w.2.1 w.2.2
      = c.mapSignals fun id name s => written id name s w := by
  refine ext_get? fun id => ?_
  rw [record, get?_modify, get?_mapSignals]
  unfold written
  split
  · next hid =>
    simp only [hid, true_and]
    congr 1
    funext m
    exact m.record_eq_mapSignals w.2.1 w.2.2
  · next hid =>
    simp only [hid, false_and, if_false]
    cases c.get? id with
    | none => rfl
    | some m =>
      exact congrArg some (Message.mapSignals_eq_self fun _ _ _ => rfl).symm

/-- **Recording values is a change in place**, which makes of each signal what all
writes make of it, one after the other. -/
theorem recordAll_eq_mapSignals (c : Catalog) (writes : List Write) :
    c.recordAll writes
      = c.mapSignals fun id name s => writes.foldl (written id name) s := by
  induction writes generalizing c with
  | nil => exact (mapSignals_eq_self fun _ _ _ _ => rfl).symm
  | cons w rest ih =>
    show (c.record w.1 w.2.1 w.2.2).recordAll rest = _
    rw [ih, record_eq_mapSignals, mapSignals_mapSignals]
    rfl

/-- **Of many values the last one remains**, and the one before all of them if
there is none. -/
theorem foldl_written (writes : List Write) (id : UInt32) (name : String)
    (s : Signal) :
    writes.foldl (written id name) s
      = s.withValue ((lastWritten? writes id name).getD s.value) := by
  induction writes using List.reverseRecOn with
  | nil => rfl
  | append_singleton writes w ih =>
    rw [List.foldl_append, ih, lastWritten?_append_singleton]
    show written id name _ w = _
    unfold written
    split
    · rfl
    · rfl

/-- **A signal holds the last value that was recorded for it**, and otherwise it is
what it was. -/
theorem signal?_recordAll (c : Catalog) (writes : List Write) (id : UInt32)
    (name : String) :
    (c.recordAll writes).signal? id name
      = (c.signal? id name).map fun s =>
        { s with value := (lastWritten? writes id name).getD s.value } := by
  rw [recordAll_eq_mapSignals, signal?_mapSignals]
  congr 1
  funext s
  exact foldl_written writes id name s

/-- A value that is recorded for no signal changes nothing. -/
theorem record_of_absent {w : Write} (h : c.signal? w.1 w.2.1 = none) :
    c.record w.1 w.2.1 w.2.2 = c := by
  rw [record_eq_mapSignals]
  refine mapSignals_eq_self fun id name s hs => if_neg ?_
  rintro ⟨rfl, rfl⟩
  exact absurd (h.symm.trans hs) nofun

/-- **Writes to what is not there can be left out**, wherever they stand. -/
theorem recordAll_append_cons_of_absent {w : Write}
    (h : c.signal? w.1 w.2.1 = none) (front back : List Write) :
    c.recordAll (front ++ w :: back) = c.recordAll (front ++ back) := by
  have habsent : (c.recordAll front).signal? w.1 w.2.1 = none := by
    rw [signal?_recordAll, h]
    rfl
  unfold recordAll at habsent ⊢
  rw [List.foldl_append, List.foldl_append, List.foldl_cons]
  exact congrArg (fun d => back.foldl _ d) (record_of_absent habsent)

/-- Writes to different signals make the same of a signal in either order. -/
theorem written_comm {v w : Write} (h : (v.1, v.2.1) ≠ (w.1, w.2.1))
    (id : UInt32) (name : String) (s : Signal) :
    written id name (written id name s v) w
      = written id name (written id name s w) v := by
  unfold written
  by_cases hv : v.1 = id ∧ v.2.1 = name
  · have hw : ¬ (w.1 = id ∧ w.2.1 = name) := fun hw =>
      h (Prod.ext (hv.1.trans hw.1.symm) (hv.2.trans hw.2.symm))
    rw [if_neg hw, if_neg hw]
  · rw [if_neg hv, if_neg hv]

/-- **Writes to different signals commute.** -/
theorem record_comm (c : Catalog) {v w : Write}
    (h : (v.1, v.2.1) ≠ (w.1, w.2.1)) :
    (c.record v.1 v.2.1 v.2.2).record w.1 w.2.1 w.2.2
      = (c.record w.1 w.2.1 w.2.2).record v.1 v.2.1 v.2.2 := by
  rw [record_eq_mapSignals, record_eq_mapSignals, record_eq_mapSignals,
    record_eq_mapSignals, mapSignals_mapSignals, mapSignals_mapSignals]
  congr 1
  funext id name s
  exact written_comm h id name s

/-- **Recording values changes recorded values and nothing else.** After any
sequence of writes, each signal that is there holds what was written last for it,
and what it held before if nothing was; all else of it is the same, and so is all
else of each message, with the names of its signals. The identifiers are the same,
the size, the numbers of messages and signals, and for each name the list of
messages in which it occurs. A write to what is not there could be left out, and
writes to different signals could be exchanged. -/
theorem recording_changes_values_only (c : Catalog) (writes : List Write) :
    (∀ id name, (c.recordAll writes).signal? id name
      = (c.signal? id name).map fun s =>
        { s with value := (lastWritten? writes id name).getD s.value })
    ∧ (∀ id, Option.Rel (fun m n => n.id = m.id ∧ n.genus = m.genus
        ∧ n.frameBytes = m.frameBytes ∧ n.family = m.family
        ∧ n.names = m.names) (c.get? id) ((c.recordAll writes).get? id))
    ∧ ((c.recordAll writes).ids = c.ids
      ∧ (c.recordAll writes).size = c.size
      ∧ (c.recordAll writes).isEmpty = c.isEmpty
      ∧ (c.recordAll writes).extent = c.extent)
    ∧ (∀ name, ((c.recordAll writes).occurrences name).map Prod.fst
      = (c.occurrences name).map Prod.fst)
    ∧ (∀ front w back, writes = front ++ w :: back →
      c.signal? w.1 w.2.1 = none →
        c.recordAll writes = c.recordAll (front ++ back))
    ∧ ∀ v w : Write, (v.1, v.2.1) ≠ (w.1, w.2.1) →
      (c.record v.1 v.2.1 v.2.2).record w.1 w.2.1 w.2.2
        = (c.record w.1 w.2.1 w.2.2).record v.1 v.2.1 v.2.2 := by
  refine ⟨c.signal?_recordAll writes, fun id => ?_, ?_, fun name => ?_, ?_,
    fun v w => c.record_comm⟩
  · rw [recordAll_eq_mapSignals, get?_mapSignals]
    cases c.get? id with
    | none => exact .none
    | some m => exact .some ⟨rfl, rfl, rfl, rfl, m.names_mapSignals _⟩
  · rw [isEmpty_eq_size, isEmpty_eq_size, recordAll_eq_mapSignals,
      ids_mapSignals, size_mapSignals, extent_mapSignals]
    exact ⟨rfl, rfl, rfl, rfl⟩
  · rw [recordAll_eq_mapSignals]
    exact c.map_fst_occurrences_mapSignals _ name
  · rintro front w back rfl habsent
    exact recordAll_append_cons_of_absent habsent front back

end Catalog

end CanCatalog
