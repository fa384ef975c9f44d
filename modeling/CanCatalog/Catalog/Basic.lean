import Std.Data.ExtTreeMap
import CanCatalog.Number

/-!
# Catalogues

A CAN frame carries an identifier and some bytes. What the bytes mean is
agreed elsewhere: which message has which identifier, and where in the bytes
of a message its signals lie and how they are scaled. A catalogue holds that
agreement as two nested tables, messages by identifier and signals by name.

Both tables are ordered by their key and have one representation for one
content, so that two catalogues are the same value exactly if every look-up in
them agrees. That is sameness of representation. The equality that a user of
catalogues asks for is `Catalog.sameAs`, and it is coarser in one way and finer
in another: an integer equals the double of the same value, and a value that
is no number equals nothing.

A message keeps its own identifier although it is stored under one. The two
agree in every catalogue that was read, but a message may be overwritten in
its place by one that carries another identifier.
-/

namespace CanCatalog

/-- **A signal**: where it lies in a message, how its raw value is scaled, and
in which range the result should be. -/
structure Signal where
  /-- The name of the signal. -/
  name : String
  /-- The bit position as it is written. -/
  endBit : UInt16
  /-- The number of bits; positive in every signal that was read. -/
  length : UInt16
  /-- The factor from the raw value to the physical one. -/
  factor : Number
  /-- What is added after scaling. -/
  offset : Number
  /-- The least physical value. -/
  minimum : Number
  /-- The largest physical value. -/
  maximum : Number
  /-- The first word of the description. -/
  description : String
  /-- The last value that was recorded; reading a catalogue records none. -/
  value : Option Number
deriving DecidableEq

/-- Signals by name, ordered by code points. -/
abbrev SignalTable := Std.ExtTreeMap String Signal compare

/-- **A message**: the layout of the frames with one identifier. -/
structure Message where
  /-- The arbitration identifier. -/
  id : UInt32
  /-- The name of the message. -/
  genus : String
  /-- How many bytes a frame carries. -/
  frameBytes : UInt32
  /-- The word at the end of the definition, by which messages are
  classified. -/
  family : String
  /-- The signals of the message. -/
  signals : SignalTable

/-- Messages by identifier. -/
abbrev MessageTable := Std.ExtTreeMap UInt32 Message compare

/-- **A catalogue**: messages by the identifier they were defined with. -/
structure Catalog where
  /-- The messages. -/
  messages : MessageTable

/-! ## Signals -/

namespace Signal

/-- **The lowest bit of a signal whose highest bit is `endBit`**, if the signal
does not reach below bit 0. The result is taken as a 16-bit position, which
matters only for an empty signal at the last position of all. -/
def startBit? (endBit length : UInt16) : Option UInt16 :=
  if length.toNat ≤ endBit.toNat + 1 then
    some (UInt16.ofNat (endBit.toNat + 1 - length.toNat))
  else none

/-- The lowest bit that the signal covers. -/
def lowestBit? (s : Signal) : Option UInt16 := startBit? s.endBit s.length

end Signal

/-! ## Messages -/

namespace Message

/-- A message without signals. -/
def empty (id : UInt32) (genus : String) (frameBytes : UInt32)
    (family : String) : Message :=
  ⟨id, genus, frameBytes, family, ∅⟩

/-- The signal of a name. -/
def signal? (m : Message) (name : String) : Option Signal := m.signals[name]?

/-- The message with one more signal, which replaces one of the same key. -/
def put (m : Message) (key : String) (s : Signal) : Message :=
  { m with signals := m.signals.insert key s }

@[simp] theorem signal?_empty (id : UInt32) (genus : String)
    (frameBytes : UInt32) (family name : String) :
    (empty id genus frameBytes family).signal? name = none := by
  simp [signal?, empty]

@[simp] theorem signal?_put (m : Message) (key : String) (s : Signal)
    (name : String) :
    (m.put key s).signal? name
      = if key = name then some s else m.signal? name := by
  simp only [signal?, put, Std.ExtTreeMap.getElem?_insert,
    Std.LawfulEqCmp.compare_eq_iff_eq]

/-- A name is taken if it can be looked up. -/
theorem contains_signals (m : Message) (name : String) :
    m.signals.contains name = (m.signal? name).isSome :=
  Std.ExtTreeMap.contains_eq_isSome_getElem?

end Message

/-! ## Catalogues -/

namespace Catalog

/-- The catalogue without messages. -/
def empty : Catalog := ⟨∅⟩

/-- The message under an identifier. -/
def get? (c : Catalog) (id : UInt32) : Option Message := c.messages[id]?

/-- Whether there is a message under an identifier. -/
def contains (c : Catalog) (id : UInt32) : Bool := c.messages.contains id

/-- **Stores a message under the identifier it carries**, in place of any
message that is there. -/
def insert (c : Catalog) (m : Message) : Catalog :=
  ⟨c.messages.insert m.id m⟩

/-- Changes the message under an identifier, if there is one. Its place
remains the same, whatever becomes of it. -/
def modify (c : Catalog) (id : UInt32) (f : Message → Message) : Catalog :=
  ⟨c.messages.modify id f⟩

/-- Keeps the messages under the identifiers that a condition selects. -/
def restrict (c : Catalog) (keeps : UInt32 → Bool) : Catalog :=
  ⟨c.messages.filter fun id _ => keeps id⟩

@[simp] theorem get?_empty (id : UInt32) : empty.get? id = none := by
  simp [get?, empty]

@[simp] theorem get?_insert (c : Catalog) (m : Message) (id : UInt32) :
    (c.insert m).get? id = if m.id = id then some m else c.get? id := by
  simp only [get?, insert, Std.ExtTreeMap.getElem?_insert,
    Std.LawfulEqCmp.compare_eq_iff_eq]

@[simp] theorem get?_modify (c : Catalog) (id : UInt32)
    (f : Message → Message) (id' : UInt32) :
    (c.modify id f).get? id'
      = if id = id' then (c.get? id).map f else c.get? id' := by
  simp only [get?, modify, Std.ExtTreeMap.getElem?_modify,
    Std.LawfulEqCmp.compare_eq_iff_eq]

@[simp] theorem get?_restrict (c : Catalog) (keeps : UInt32 → Bool)
    (id : UInt32) :
    (c.restrict keeps).get? id = (c.get? id).filter fun _ => keeps id := by
  simp only [get?, restrict, Std.ExtTreeMap.getElem?_filter']

/-- A restricted catalogue has the messages that are kept and no others. -/
theorem get?_restrict_eq_ite (c : Catalog) (keeps : UInt32 → Bool)
    (id : UInt32) :
    (c.restrict keeps).get? id = if keeps id then c.get? id else none := by
  rw [get?_restrict]
  cases c.get? id with
  | none => exact (ite_self none).symm
  | some m => rfl

/-- An identifier is taken if it can be looked up. -/
theorem contains_eq_isSome (c : Catalog) (id : UInt32) :
    c.contains id = (c.get? id).isSome :=
  Std.ExtTreeMap.contains_eq_isSome_getElem?

/-- **Two catalogues are the same if all look-ups agree.** -/
theorem ext_get? {c d : Catalog} (h : ∀ id, c.get? id = d.get? id) : c = d := by
  cases c with
  | mk a =>
    cases d with
    | mk b => exact congrArg Catalog.mk (Std.ExtTreeMap.ext_getElem? h)

/-- A message can be changed before it is stored or in its place. -/
theorem modify_insert (c : Catalog) (m : Message) {f : Message → Message}
    (hid : (f m).id = m.id) : (c.insert m).modify m.id f = c.insert (f m) := by
  refine ext_get? fun id => ?_
  rw [get?_modify, get?_insert, get?_insert, get?_insert, hid, if_pos rfl]
  split <;> rfl

end Catalog

/-! ## Recording values

A decoder records the values it saw. A value is addressed by the identifier under
which its message is stored, and a record for what is not there does nothing. -/

/-- The signal with a value recorded, or with its record taken away. -/
def Signal.withValue (s : Signal) (value : Option Number) : Signal :=
  { s with value := value }

/-- The message with a value recorded for one of its signals. -/
def Message.record (m : Message) (name : String) (value : Option Number) :
    Message :=
  { m with signals := m.signals.modify name fun s => s.withValue value }

/-- **Records a value** for a signal, or takes its record away. -/
def Catalog.record (c : Catalog) (id : UInt32) (name : String)
    (value : Option Number) : Catalog :=
  c.modify id fun m => m.record name value

/-! ## Equality

Two catalogues are equal if they have the same entries under the same keys, and
two entries are equal if their fields are. Numbers are compared by value. So
`1` and `1.0` make no difference, and neither does the sign of zero; but a
recorded value that is no number makes a catalogue differ even from itself. -/

/-- **Two tables agree**: they are of one size, and each entry of the first has
an equal one under the same key in the second. -/
def tablesAgree {α β : Type} [Ord α] [Std.TransOrd α] (same : β → β → Bool)
    (a b : Std.ExtTreeMap α β compare) : Bool :=
  a.size == b.size &&
    a.toList.all fun (k, x) => (b[k]?).any fun y => same x y

/-- Recorded values agree: none is recorded in either, or equal ones are. -/
def recordsAgree : Option Number → Option Number → Bool
  | none, none => true
  | some a, some b => a.sameAs b
  | _, _ => false

/-- Equality of signals. -/
def Signal.sameAs (s t : Signal) : Bool :=
  s.name == t.name && s.endBit == t.endBit && s.length == t.length
    && s.factor.sameAs t.factor && s.offset.sameAs t.offset
    && s.minimum.sameAs t.minimum && s.maximum.sameAs t.maximum
    && s.description == t.description && recordsAgree s.value t.value

/-- Equality of messages. -/
def Message.sameAs (m n : Message) : Bool :=
  m.id == n.id && m.family == n.family && m.genus == n.genus
    && m.frameBytes == n.frameBytes
    && tablesAgree Signal.sameAs m.signals n.signals

/-- **Equality of catalogues.** -/
def Catalog.sameAs (c d : Catalog) : Bool :=
  tablesAgree Message.sameAs c.messages d.messages

end CanCatalog
