import CanCatalog.Catalog.Basic

/-!
# Questions to a catalogue

What a catalogue is asked apart from single look-ups: which identifiers it
has, how much it holds, and in which messages a signal of some name occurs.
Lists come out in ascending order. They are put into it when they are asked for,
and the order in which a table yields its keys makes no difference.

The messages that contain a signal are listed by the identifiers they
*carry*. In a catalogue as it was read those are the identifiers they are
stored under, and the order is strict.
-/

namespace CanCatalog

/-- **How much a catalogue holds.** -/
structure Extent where
  /-- The number of messages. -/
  messages : Nat
  /-- The number of signals in all messages together. -/
  signals : Nat
deriving DecidableEq, Repr

/-- **Keys in ascending order**, in whatever order they come. -/
def ascending {α : Type} [LE α] [DecidableLE α] (keys : List α) : List α :=
  keys.mergeSort fun a b => decide (a ≤ b)

/-- Sorting takes away nothing and adds nothing. -/
theorem ascending_perm {α : Type} [LE α] [DecidableLE α] (keys : List α) :
    (ascending keys).Perm keys :=
  List.mergeSort_perm _ _

/-- The names of the signals of a message, ascending. -/
def Message.names (m : Message) : List String := ascending m.signals.keys

namespace Catalog

/-- The identifiers under which there are messages, ascending. -/
def ids (c : Catalog) : List UInt32 := ascending c.messages.keys

/-- An identifier is listed if it is taken. -/
theorem mem_ids (c : Catalog) (id : UInt32) :
    id ∈ c.ids ↔ c.contains id = true := by
  rw [ids, (ascending_perm _).mem_iff]
  exact Std.ExtTreeMap.mem_keys

/-- No identifier is listed twice. -/
theorem nodup_ids (c : Catalog) : c.ids.Nodup :=
  (ascending_perm _).nodup_iff.2 Std.ExtTreeMap.nodup_keys

/-- The messages, in the order in which the table yields them. -/
def toList (c : Catalog) : List Message := c.messages.toList.map Prod.snd

/-- The number of messages. -/
def size (c : Catalog) : Nat := c.messages.size

/-- There are as many identifiers as messages. -/
theorem size_eq_length_ids (c : Catalog) : c.size = c.ids.length :=
  ((ascending_perm _).length_eq.trans Std.ExtTreeMap.length_keys).symm

/-- Whether there are no messages. -/
def isEmpty (c : Catalog) : Bool := c.messages.isEmpty

/-- The number of messages and signals. -/
def extent (c : Catalog) : Extent :=
  ⟨c.size, c.toList.foldr (fun m n => m.signals.size + n) 0⟩

/-- **Every signal of a name**, with the identifier that its message carries,
ascending in that identifier. -/
def occurrences (c : Catalog) (name : String) : List (UInt32 × Signal) :=
  (c.toList.filterMap fun m => (m.signal? name).map fun s => (m.id, s)).mergeSort
    fun a b => decide (a.1 ≤ b.1)

/-- The signal of a name in the message under an identifier. -/
def signal? (c : Catalog) (id : UInt32) (name : String) : Option Signal :=
  (c.get? id).bind fun m => m.signal? name

end Catalog

end CanCatalog
