import CanCatalog.Catalog.Basic
import CanCatalog.Number.Numeral
import Mathlib.Data.List.Forall2
import Mathlib.Data.List.Nodup

/-!
# Serializers

A catalogue is written as a JSON value by code that is not part of this library. It
is generated from the declarations of the fields, and it hands the values of these
to a general writer. So nothing is known here but what that code is documented to
do, which is collected as the laws of a *serializer* (`Serializer.Lawful`). Fields
go under their names, and whether a number is an integer is not written beside it.
Tables have their keys for names, in any order. A double is written with as many
digits as it takes to read it back.

How values are compared is another matter, and it is foreign as well. It has laws
of its own: the kinds of values are kept apart, and objects are compared name by
name. What it means that two numbers are equal is left open by these, because there
are two answers. One looks at what is written (`Serializer.ComparesTokens`), the
other at what it denotes (`Serializer.ComparesValues`).

Two kinds of objects are written. One has the fields of a record. Their names are
known and none is repeated, and then equal objects have equal values, field by field
(`Serializer.Lawful.values`). The other holds a table. Which names there are is not
known, but if different keys have different names then equal objects have equal
values key by key (`Serializer.Lawful.rel_getElem?`).
-/

namespace CanCatalog

/-- **What tells the token of a double from that of an integer**: a point, or a
mark before an exponent. -/
def Numeral.IsMarked (token : List Char) : Prop :=
  '.' ∈ token ∨ 'e' ∈ token ∨ 'E' ∈ token

/-- **A way to write catalogues as JSON values**, and to compare what was
written. -/
structure Serializer where
  /-- The values. -/
  Value : Type
  /-- The word `null`. -/
  null : Value
  /-- A number, by the characters that it is written with. -/
  numeral : List Char → Value
  /-- A string. -/
  string : String → Value
  /-- An object, by its members in the order in which they are written. -/
  object : List (String × Value) → Value
  /-- Whether two values are taken to be equal. -/
  Equal : Value → Value → Prop
  /-- What is written of a number. -/
  number : Number → Value
  /-- What is written of a signal. -/
  signal : Signal → Value
  /-- What is written of a message. -/
  message : Message → Value
  /-- What is written of a catalogue. -/
  catalog : Catalog → Value

namespace Serializer

variable (S : Serializer)

/-- A natural number in decimal. -/
def count (n : Nat) : S.Value := S.numeral (Number.integerText n)

/-- What is written of a value that may be missing: `null` if it is. -/
def record (value : Option Number) : S.Value := value.elim S.null S.number

/-- **The laws of a serializer.** Those of writing are about code that is derived
from declarations, and about a writer that loses no bit of a finite double; those
of comparing are about values of any kind. -/
structure Lawful : Prop where
  /-- A catalogue has one field, a table with identifiers for keys. They are turned
  into strings, and stand in any order. -/
  catalog_eq : ∀ c, ∃ members, S.catalog c
      = S.object [("messages", S.object members)]
    ∧ members.Perm (c.messages.toList.map fun entry =>
      (String.ofList (Number.integerText entry.1.toNat), S.message entry.2))
  /-- A message is written with its fields under their names, and one of them is a
  table, in any order too. -/
  message_eq : ∀ m, ∃ members, S.message m = S.object [
      ("arbitration_id", S.count m.id.toNat),
      ("family", S.string m.family),
      ("genus", S.string m.genus),
      ("frame_bytes", S.count m.frameBytes.toNat),
      ("signals", S.object members)]
    ∧ members.Perm (m.signals.toList.map fun entry =>
      (entry.1, S.signal entry.2))
  /-- A signal is written with its fields under their names. -/
  signal_eq : ∀ s, S.signal s = S.object [
    ("name", S.string s.name),
    ("end_bit", S.count s.endBit.toNat),
    ("length", S.count s.length.toNat),
    ("factor", S.number s.factor),
    ("offset", S.number s.offset),
    ("minimum", S.number s.minimum),
    ("maximum", S.number s.maximum),
    ("description", S.string s.description),
    ("current_value", S.record s.value)]
  /-- An integer is written in decimal, with nothing around it. -/
  integer_eq : ∀ v : Int64,
    S.number (.integer v) = S.numeral (Number.integerText v.toInt)
  /-- A finite double is written with a point or an exponent, and so that it is
  read back from it. -/
  real_eq : ∀ x : Binary64, x.isFinite = true →
    ∃ token, S.number (.real x) = S.numeral token
      ∧ Numeral.IsMarked token ∧ Numeral.double? token = some x
  /-- A double that is not finite has no token. -/
  real_eq_null : ∀ x : Binary64, x.isFinite = false →
    S.number (.real x) = S.null
  /-- A number is not `null`. -/
  null_numeral : ∀ token, ¬ S.Equal S.null (S.numeral token)
  /-- Nor is `null` a number. -/
  numeral_null : ∀ token, ¬ S.Equal (S.numeral token) S.null
  /-- Equal strings are the same. -/
  eq_of_string : ∀ a b, S.Equal (S.string a) (S.string b) → a = b
  /-- Equal integers are the same. -/
  eq_of_integer : ∀ v w : Int64,
    S.Equal (S.numeral (Number.integerText v.toInt))
      (S.numeral (Number.integerText w.toInt)) → v = w
  /-- An integer is not equal to a double. -/
  integer_marked : ∀ (v : Int64) token, Numeral.IsMarked token →
    ¬ S.Equal (S.numeral (Number.integerText v.toInt)) (S.numeral token)
  /-- Nor is a double equal to an integer. -/
  marked_integer : ∀ token (v : Int64), Numeral.IsMarked token →
    ¬ S.Equal (S.numeral token) (S.numeral (Number.integerText v.toInt))
  /-- In equal objects, in which no name is repeated, each member of one has one in
  the other, of the same name and with an equal value. -/
  exists_member : ∀ xs ys, (xs.map Prod.fst).Nodup → (ys.map Prod.fst).Nodup →
    S.Equal (S.object xs) (S.object ys) →
    (∀ x ∈ xs, ∃ y ∈ ys, y.1 = x.1 ∧ S.Equal x.2 y.2)
      ∧ ∀ y ∈ ys, ∃ x ∈ xs, x.1 = y.1 ∧ S.Equal x.2 y.2

/-- **Numbers are compared by what is written**: equal ones have the same
token. -/
def ComparesTokens : Prop :=
  ∀ a b, S.Equal (S.numeral a) (S.numeral b) → a = b

/-- **Numbers are compared by what they denote**: those that are equal, and read as
finite doubles, have one value. -/
def ComparesValues : Prop :=
  ∀ a b, S.Equal (S.numeral a) (S.numeral b) →
    ∀ x y : Binary64, x.isFinite = true → y.isFinite = true →
      Numeral.double? a = some x → Numeral.double? b = some y →
      x.compare? y = some .eq

/-! ## Tables as members of an object -/

section

variable {α β ν : Type} [Ord α] [Std.TransOrd α]
  {t : Std.ExtTreeMap α β compare} {name : α → String} {value : β → ν}
  {members : List (String × ν)}

/-- No name is repeated among the members, if different keys have different
names. -/
theorem nodup_names_of_perm (hname : Function.Injective name)
    (h : members.Perm (t.toList.map fun entry =>
      (name entry.1, value entry.2))) : (members.map Prod.fst).Nodup := by
  rw [(h.map Prod.fst).nodup_iff, List.map_map]
  have hkeys : (t.keys.map name).Nodup := Std.ExtTreeMap.nodup_keys.map hname
  rwa [← Std.ExtTreeMap.map_fst_toList_eq_keys, List.map_map] at hkeys

/-- Under the name of a key stands what the table has for the key. -/
theorem mem_iff_of_perm [Std.LawfulEqOrd α] (hname : Function.Injective name)
    (h : members.Perm (t.toList.map fun entry =>
      (name entry.1, value entry.2))) {k : α} {v : ν} :
    (name k, v) ∈ members ↔ ∃ x, t[k]? = some x ∧ value x = v := by
  rw [h.mem_iff, List.mem_map]
  constructor
  · rintro ⟨⟨k', x⟩, hentry, heq⟩
    obtain ⟨hk, hx⟩ := Prod.mk.inj heq
    obtain rfl := hname hk
    exact ⟨x, Std.ExtTreeMap.mem_toList_iff_getElem?_eq_some.1 hentry, hx⟩
  · rintro ⟨x, hx, rfl⟩
    exact ⟨(k, x), Std.ExtTreeMap.mem_toList_iff_getElem?_eq_some.2 hx, rfl⟩

end

namespace Lawful

variable {S} (laws : S.Lawful)
include laws

/-- Equal natural numbers are the same, if they are not too large. -/
theorem eq_of_count {m n : Nat} (hm : m < UInt32.size) (hn : n < UInt32.size)
    (h : S.Equal (S.count m) (S.count n)) : m = n := by
  have hword {k : Nat} (hk : k < UInt32.size) : (Int64.ofNat k).toInt = k :=
    Int64.toInt_ofNat_of_lt (Nat.lt_trans hk (by decide))
  unfold count at h
  rw [← hword hm, ← hword hn] at h
  have hsame := congrArg Int64.toInt (laws.eq_of_integer _ _ h)
  rw [hword hm, hword hn] at hsame
  exact Int.ofNat.inj hsame

/-- Equal identifiers and sizes are the same. -/
theorem eq_of_uint32 {m n : UInt32}
    (h : S.Equal (S.count m.toNat) (S.count n.toNat)) : m = n :=
  UInt32.toNat_inj.1 (laws.eq_of_count m.toNat_lt_size n.toNat_lt_size h)

/-- Equal bit positions and lengths are the same. -/
theorem eq_of_uint16 {m n : UInt16}
    (h : S.Equal (S.count m.toNat) (S.count n.toNat)) : m = n :=
  UInt16.toNat_inj.1 (laws.eq_of_count
    (Nat.lt_trans m.toNat_lt_size (by decide))
    (Nat.lt_trans n.toNat_lt_size (by decide)) h)

/-- **Equal objects with the same names in the same order have equal values**, one
after the other, if no name is repeated. -/
theorem values {xs ys : List (String × S.Value)}
    (h : S.Equal (S.object xs) (S.object ys))
    (names : xs.map Prod.fst = ys.map Prod.fst)
    (nodup : (xs.map Prod.fst).Nodup) :
    List.Forall₂ S.Equal (xs.map Prod.snd) (ys.map Prod.snd) := by
  have hlength : xs.length = ys.length := by
    simpa only [List.length_map] using congrArg List.length names
  have hfound := (laws.exists_member xs ys nodup (names ▸ nodup) h).1
  refine List.forall₂_iff_get.2 ⟨by simp only [List.length_map, hlength], ?_⟩
  intro i hi hi'
  rw [List.length_map] at hi hi'
  obtain ⟨y, hy, hname, hequal⟩ := hfound xs[i] (List.getElem_mem hi)
  have hsame := List.getElem_of_eq names (i := i) (by rwa [List.length_map])
  rw [List.getElem_map, List.getElem_map] at hsame
  -- there is one member of that name only
  obtain rfl : y = ys[i] := List.inj_on_of_nodup_map (names ▸ nodup) hy
    (List.getElem_mem hi') (hname.trans hsame)
  simpa only [List.get_eq_getElem, List.getElem_map] using hequal

/-- **Equal objects that hold tables have equal values under each key**, if
different keys have different names. -/
theorem rel_getElem? {α β : Type} [Ord α] [Std.TransOrd α] [Std.LawfulEqOrd α]
    {a b : Std.ExtTreeMap α β compare} {name : α → String} {value : β → S.Value}
    (hname : Function.Injective name) {xs ys : List (String × S.Value)}
    (hxs : xs.Perm (a.toList.map fun entry => (name entry.1, value entry.2)))
    (hys : ys.Perm (b.toList.map fun entry => (name entry.1, value entry.2)))
    (h : S.Equal (S.object xs) (S.object ys)) (k : α) :
    Option.Rel (fun x y => S.Equal (value x) (value y)) a[k]? b[k]? := by
  obtain ⟨hleft, hright⟩ := laws.exists_member xs ys
    (nodup_names_of_perm hname hxs) (nodup_names_of_perm hname hys) h
  cases hx : a[k]? with
  | some x =>
    obtain ⟨⟨_, v⟩, hv, rfl, hequal⟩ :=
      hleft _ ((mem_iff_of_perm hname hxs).2 ⟨x, hx, rfl⟩)
    obtain ⟨y, hy, rfl⟩ := (mem_iff_of_perm hname hys).1 hv
    rw [hy]
    exact .some hequal
  | none =>
    cases hy : b[k]? with
    | none => exact .none
    | some y =>
      obtain ⟨⟨_, v⟩, hv, rfl, -⟩ :=
        hright _ ((mem_iff_of_perm hname hys).2 ⟨y, hy, rfl⟩)
      obtain ⟨x, hx', -⟩ := (mem_iff_of_perm hname hxs).1 hv
      exact absurd (hx.symm.trans hx') nofun

end Lawful

end Serializer

end CanCatalog
