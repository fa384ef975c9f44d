import CanCatalog.Catalog.Query
import CanCatalog.Proofs.Reading.Origin
import Mathlib.Algebra.BigOperators.Group.Finset.Basic
import Mathlib.Algebra.Ring.Nat

/-!
# Questions agree

A catalogue answers in several ways what it holds: identifier by identifier, as a
list of messages, in numbers, and signal name by signal name. All answers are
taken from one table, and they agree. This rests on one fact: looking up the
identifiers of a catalogue, one after the other, gives its messages, in some order
(`map_get?_ids`). So a sum over messages is a sum over identifiers.

The order in which a table yields what it holds is of no use to anybody, and none
is used here. What is listed in order has been sorted, and keys that are sorted
come out the same from any order (`ascending_eq_of_perm`).

The signals are counted along two lines. Each stands in one message and under
one name there; added up over the messages or over the names, the number is the
same, because both add up the table of names by messages (`count_names`).

Where a signal occurs is listed by the identifiers that messages carry. As long
as these are the identifiers they are stored under, no two entries of the list
have the same one, and the entry for an identifier is what is found there. That
holds of what was read, and recording values does not change it; a message that
was overwritten may spoil it.
-/

namespace CanCatalog

/-! ## Keys in order -/

section

variable {α : Type} [LE α] [DecidableLE α] [Std.IsLinearOrder α]

/-- **What is sorted by a key ascends in it.** -/
theorem pairwise_sorted {β : Type} (key : β → α) (entries : List β) :
    (entries.mergeSort fun a b => decide (key a ≤ key b)).Pairwise
      fun a b => key a ≤ key b := by
  refine (List.pairwise_mergeSort (fun a b c hab hbc => ?_) (fun a b => ?_)
    entries).imp of_decide_eq_true
  · exact decide_eq_true
      (Std.le_trans (of_decide_eq_true hab) (of_decide_eq_true hbc))
  · rw [Bool.or_eq_true, decide_eq_true_iff, decide_eq_true_iff]
    exact Std.le_total

/-- Keys that are sorted ascend. -/
theorem pairwise_ascending (keys : List α) :
    (ascending keys).Pairwise (· ≤ ·) :=
  pairwise_sorted id keys

/-- **The order in which keys are given makes no difference.** -/
theorem ascending_eq_of_perm {keys keys' : List α} (h : keys.Perm keys') :
    ascending keys = ascending keys' :=
  List.Perm.eq_of_pairwise (fun _ _ _ _ => Std.le_antisymm)
    (pairwise_ascending keys) (pairwise_ascending keys')
    ((ascending_perm keys).trans (h.trans (ascending_perm keys').symm))

end

namespace Message

variable {m : Message} {name : String}

/-- The names of a message are those under which there is a signal. -/
theorem mem_names : name ∈ m.names ↔ (m.signal? name).isSome = true := by
  rw [names, (ascending_perm _).mem_iff, Std.ExtTreeMap.mem_keys,
    Std.ExtTreeMap.mem_iff_isSome_getElem?]
  exact Iff.rfl

/-- A message has a name for each signal. -/
theorem length_names (m : Message) : m.names.length = m.signals.size :=
  (ascending_perm _).length_eq.trans Std.ExtTreeMap.length_keys

/-- No name is repeated in a message. -/
theorem nodup_names (m : Message) : m.names.Nodup :=
  (ascending_perm _).nodup_iff.2 Std.ExtTreeMap.nodup_keys

/-- **A name counts once in a message**, if there is a signal under it. -/
theorem count_names (m : Message) (name : String) :
    m.names.count name = (m.signal? name).toList.length := by
  rw [m.nodup_names.count, if_congr mem_names rfl rfl]
  cases m.signal? name <;> rfl

end Message

namespace Catalog

variable {c : Catalog} {id : UInt32} {name key : String} {s : Signal}

/-! ## Messages by identifiers -/

/-- **Identifiers are listed in strictly ascending order.** -/
theorem pairwise_ids (c : Catalog) : c.ids.Pairwise (· < ·) :=
  (pairwise_ascending _).imp₂
    (fun _ _ hle hne => Std.lt_of_le_of_ne hle hne) c.nodup_ids

/-- Where a message is found, the identifier is listed. -/
theorem mem_ids_of_get? {m : Message} (h : c.get? id = some m) : id ∈ c.ids := by
  rw [mem_ids, contains_eq_isSome, h]
  rfl

/-- **The identifiers are looked up to the messages**, in some order. -/
theorem map_get?_ids (c : Catalog) :
    (c.ids.map c.get?).Perm (c.toList.map some) := by
  refine ((ascending_perm _).map _).trans (.of_eq ?_)
  unfold toList
  rw [← Std.ExtTreeMap.map_fst_toList_eq_keys, List.map_map, List.map_map]
  refine List.map_congr_left fun entry hentry => ?_
  exact Std.ExtTreeMap.mem_toList_iff_getElem?_eq_some.1 hentry

/-- There are as many identifiers as messages. -/
theorem length_ids (c : Catalog) : c.ids.length = c.toList.length := by
  simpa only [List.length_map] using c.map_get?_ids.length_eq

/-- A message is listed if it is found. -/
theorem mem_toList {m : Message} :
    m ∈ c.toList ↔ ∃ id, c.get? id = some m := by
  have hmem : m ∈ c.toList ↔ some m ∈ c.ids.map c.get? := by
    rw [c.map_get?_ids.mem_iff,
      List.mem_map_of_injective (Option.some_injective _)]
  rw [hmem, List.mem_map]
  exact exists_congr fun id => and_iff_right_of_imp mem_ids_of_get?

/-- **What is selected of the messages** is what is selected of the identifiers,
after looking them up. -/
theorem filterMap_toList {α : Type} (c : Catalog) (f : Message → Option α) :
    (c.toList.filterMap f).Perm
      (c.ids.filterMap fun id => (c.get? id).bind f) := by
  have h := c.map_get?_ids.filterMap fun m? => Option.bind m? f
  rw [List.filterMap_map, List.filterMap_map] at h
  exact h.symm

/-- **A sum over the messages** is a sum over the identifiers. -/
theorem sum_toList (c : Catalog) (f : Message → Nat) :
    (c.toList.map f).sum = (c.ids.map fun id => (c.get? id).elim 0 f).sum := by
  have h := c.map_get?_ids.map fun m? => Option.elim m? 0 f
  rw [List.map_map, List.map_map] at h
  exact h.sum_eq.symm

/-! ## Signals, by messages and by names -/

/-- The signals are counted message by message. -/
theorem extent_signals (c : Catalog) :
    c.extent.signals = (c.toList.map fun m => m.names.length).sum := by
  simp only [Message.length_names]
  rw [List.sum, List.foldr_map]
  rfl

/-- **All names of signals** in a catalogue. -/
def keys (c : Catalog) : Finset String :=
  (c.toList.flatMap Message.names).toFinset

/-- A name is one under which a signal is found. -/
theorem mem_keys : key ∈ c.keys ↔ ∃ id s, c.signal? id key = some s := by
  unfold keys signal?
  simp only [List.mem_toFinset, List.mem_flatMap, mem_toList, Message.mem_names,
    Option.bind_eq_some_iff, Option.isSome_iff_exists]
  constructor
  · rintro ⟨m, ⟨id, hm⟩, s, hs⟩
    exact ⟨id, s, m, hm, hs⟩
  · rintro ⟨id, s, m, hm, hs⟩
    exact ⟨m, ⟨id, hm⟩, s, hs⟩

/-- What occurs is what is found in the messages, in another order. -/
theorem occurrences_perm (c : Catalog) (name : String) :
    (c.occurrences name).Perm (c.toList.filterMap fun m =>
      (m.signal? name).map fun s => (m.id, s)) :=
  List.mergeSort_perm _ _

/-- **Occurrences ascend** in the identifiers that messages carry. -/
theorem pairwise_occurrences (c : Catalog) (name : String) :
    (c.occurrences name).Pairwise fun a b => a.1 ≤ b.1 :=
  pairwise_sorted Prod.fst _

/-- **A signal occurs as often as its name does** among the names of all
messages. -/
theorem length_occurrences (c : Catalog) (name : String) :
    (c.occurrences name).length
      = (c.toList.flatMap Message.names).count name := by
  rw [(c.occurrences_perm name).length_eq]
  induction c.toList with
  | nil => rfl
  | cons m rest ih =>
    rw [List.flatMap_cons, List.count_append, Message.count_names, ← ih,
      List.filterMap_cons]
    cases m.signal? name with
    | none => exact (Nat.zero_add _).symm
    | some s => exact Nat.add_comm _ 1

/-- **The signals are counted name by name.** -/
theorem extent_signals_eq_sum_keys (c : Catalog) :
    c.extent.signals = ∑ key ∈ c.keys, (c.occurrences key).length := by
  rw [extent_signals, ← List.length_flatMap, ← List.sum_toFinset_count_eq_length]
  exact Finset.sum_congr rfl fun key _ => (c.length_occurrences key).symm

/-! ## Messages in their places -/

/-- **Messages are in their places**: each carries the identifier that it is
stored under. -/
def InPlace (c : Catalog) : Prop := ∀ id m, c.get? id = some m → m.id = id

/-- **The signals that are found under a name**, one identifier after the other. -/
def found (c : Catalog) (name : String) : List (UInt32 × Signal) :=
  c.ids.filterMap fun id => (c.signal? id name).map (Prod.mk id)

/-- What is found is in strictly ascending order. -/
theorem pairwise_found (c : Catalog) (name : String) :
    (c.found name).Pairwise fun a b => a.1 < b.1 := by
  refine c.pairwise_ids.filterMap _ fun id id' hlt a ha b hb => ?_
  obtain ⟨_, -, rfl⟩ := Option.map_eq_some_iff.1 ha
  obtain ⟨_, -, rfl⟩ := Option.map_eq_some_iff.1 hb
  exact hlt

/-- It is what is looked up. -/
theorem mem_found : (id, s) ∈ c.found name ↔ c.signal? id name = some s := by
  unfold found
  rw [List.mem_filterMap]
  constructor
  · rintro ⟨id', -, h⟩
    obtain ⟨s', hs', heq⟩ := Option.map_eq_some_iff.1 h
    obtain ⟨rfl, rfl⟩ := Prod.mk.inj heq
    exact hs'
  · intro h
    obtain ⟨m, hm, -⟩ := Option.bind_eq_some_iff.1 h
    exact ⟨id, mem_ids_of_get? hm, by rw [h]; rfl⟩

/-- **Where messages are in their places, what occurs is what is found.** No two
entries of either have the same identifier, so both are in the one order that
ascends. -/
theorem InPlace.occurrences_eq (h : c.InPlace) (name : String) :
    c.occurrences name = c.found name := by
  have hperm : (c.occurrences name).Perm (c.found name) := by
    refine (c.occurrences_perm name).trans
      ((c.filterMap_toList _).trans (.of_eq ?_))
    refine List.filterMap_congr fun id _ => ?_
    unfold signal?
    cases hm : c.get? id with
    | none => rfl
    | some m =>
      show ((m.signal? name).map fun s => (m.id, s)) = _
      rw [h id m hm]
      rfl
  refine List.Perm.eq_of_pairwise (fun a b ha hb hab hba => ?_)
    (c.pairwise_occurrences name)
    ((c.pairwise_found name).imp UInt32.le_of_lt) hperm
  have hid : a.1 = b.1 := UInt32.le_antisymm hab hba
  have hs := mem_found.1 (hperm.mem_iff.1 ha)
  rw [hid, mem_found.1 hb] at hs
  exact Prod.ext hid (Option.some.inj hs).symm

/-- Recording one value leaves messages in their places. -/
theorem InPlace.record (h : c.InPlace) (id : UInt32) (name : String)
    (value : Option Number) : (c.record id name value).InPlace := by
  intro id' m' hm'
  rw [Catalog.record, get?_modify] at hm'
  split at hm'
  · next hid =>
    obtain ⟨m, hm, rfl⟩ := Option.map_eq_some_iff.1 hm'
    exact (h id m hm).trans hid
  · exact h id' m' hm'

/-- **Records values**, one after the other. -/
def recordAll (c : Catalog) (writes : List (UInt32 × String × Option Number)) :
    Catalog :=
  writes.foldl (fun c (id, name, value) => c.record id name value) c

/-- **Recording any number of values leaves messages in their places.** -/
theorem InPlace.recordAll (h : c.InPlace)
    (writes : List (UInt32 × String × Option Number)) :
    (c.recordAll writes).InPlace := by
  induction writes generalizing c with
  | nil => exact h
  | cons write rest ih => exact ih (h.record write.1 write.2.1 write.2.2)

/-- **What is read is in its place**, wherever it is read from. -/
theorem inPlace_of_outcome {o : Options} {origin : Reading.Origin}
    (h : (origin.read o).outcome = .ok c) : c.InPlace := by
  obtain ⟨text, -, htext⟩ := Reading.Origin.exists_ofText h
  exact fun id m hm => ((Reading.sound_of_ofEntries htext).messages id m hm).1

/-- **All answers agree.** Of any catalogue, as it was read or changed in any way:
the occurrences of a signal have one entry for each identifier under which there
is a message with this signal, and the entry consists of the identifier that this
message carries and the signal; they ascend in the identifier. Identifiers ascend
strictly, and those are listed that are taken, which are those under which a
message is found. They are the same in whatever order the table yields its keys.
The numbers of messages agree. The number of signals is the sum of the numbers of
names, identifier by identifier, and it is the sum of the numbers of occurrences,
name by name.

Of a catalogue that was read, and in which nothing but values was recorded, the
occurrences ascend strictly, and they are what is looked up. -/
theorem answers_agree :
    (∀ (c : Catalog) (name : String),
      (c.occurrences name).Perm (c.ids.filterMap fun id =>
        (c.get? id).bind fun m => (m.signal? name).map fun s => (m.id, s))
      ∧ (c.occurrences name).Pairwise fun a b => a.1 ≤ b.1)
    ∧ (∀ c : Catalog,
      c.ids.Pairwise (· < ·)
      ∧ (∀ id, (id ∈ c.ids ↔ c.contains id = true)
          ∧ (c.contains id = true ↔ (c.get? id).isSome = true))
      ∧ (∀ keys, keys.Perm c.messages.keys → ascending keys = c.ids)
      ∧ (c.size = c.extent.messages ∧ c.size = c.ids.length
          ∧ c.size = c.toList.length)
      ∧ c.extent.signals = (c.ids.map fun id =>
          (c.get? id).elim 0 fun m => m.names.length).sum
      ∧ c.extent.signals = ∑ key ∈ c.keys, (c.occurrences key).length
      ∧ ∀ key, key ∈ c.keys ↔ ∃ id s, c.signal? id key = some s)
    ∧ ∀ (o : Options) (origin : Reading.Origin) (c : Catalog),
      (origin.read o).outcome = .ok c → ∀ writes name,
        ((c.recordAll writes).occurrences name).Pairwise (fun a b => a.1 < b.1)
        ∧ ∀ id s, (id, s) ∈ (c.recordAll writes).occurrences name
          ↔ (c.recordAll writes).signal? id name = some s := by
  refine ⟨fun c name => ⟨?_, c.pairwise_occurrences name⟩, fun c => ?_,
    fun o origin c h writes name => ?_⟩
  · exact (c.occurrences_perm name).trans (c.filterMap_toList _)
  · refine ⟨c.pairwise_ids, fun id => ⟨c.mem_ids id, ?_⟩,
      fun keys => ascending_eq_of_perm, ⟨rfl,
      c.size_eq_length_ids, c.size_eq_length_ids.trans c.length_ids⟩, ?_,
      c.extent_signals_eq_sum_keys, fun key => mem_keys⟩
    · rw [contains_eq_isSome]
    · rw [extent_signals, sum_toList]
  · rw [((inPlace_of_outcome h).recordAll writes).occurrences_eq]
    exact ⟨pairwise_found _ name, fun id s => mem_found⟩

end Catalog

end CanCatalog
