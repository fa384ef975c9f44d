import CanCatalog.Proofs.Catalog.Json
import CanCatalog.Proofs.Catalog.Reflexivity

/-!
# What JSON keeps of a catalogue

A catalogue in JSON is meant to be the whole catalogue. So two catalogues that are
written to equal values should be the same, and the same in their representation: an
integer is not the double it equals, a zero has its sign, and a value that was
recorded differs from none. This is proved of any lawful serializer.

The proof follows the levels of a catalogue. A signal is known from its fields, and
a message from its fields, one of which is a table. A catalogue is a table as well,
and its keys are written in decimal, so it matters that identifiers are told apart
by their digits. What is left are the numbers: catalogues that are written to equal
values are alike, with numbers that are (`Serializer.Lawful.alike`). If these are
compared by their tokens they are the same, because a double is read back from its
token. If they are compared by their values there is one thing that gets lost, the
sign of a zero (`Catalog.alike_of_comparesValues`).

There is a loss in any case where a number is not finite. It has no token and is
written as `null`, as is a value that was never recorded. So all numbers are
required to be finite, recorded values included.
-/

namespace CanCatalog

/-! ## Numbers -/

/-- Identifiers are told apart by their digits. -/
theorem Numeral.key_injective : Function.Injective fun id : UInt32 =>
    String.ofList (Number.integerText id.toNat) := fun _ _ h =>
  UInt32.toNat_inj.1 (Int.ofNat.inj
    (integerText_injective (String.ofList_injective h)))

namespace Serializer

variable {S : Serializer}

/-- **Finite numbers that are written to equal values.** -/
structure WrittenAlike (S : Serializer) (a b : Number) : Prop where
  /-- The first one is finite. -/
  left : a.isFinite = true
  /-- The second one is finite. -/
  right : b.isFinite = true
  /-- What is written of them is equal. -/
  equal : S.Equal (S.number a) (S.number b)

namespace Lawful

variable (laws : S.Lawful)
include laws

/-- What is finite has a token. -/
theorem exists_numeral {a : Number} (ha : a.isFinite = true) :
    ∃ token, S.number a = S.numeral token := by
  cases a with
  | integer v => exact ⟨_, laws.integer_eq v⟩
  | real x =>
    obtain ⟨token, hnumber, -⟩ := laws.real_eq x ha
    exact ⟨token, hnumber⟩

/-- **Numbers that are written alike are of one kind.** They are one integer, or
two doubles, each of which is read back from its token. -/
theorem alike_cases {a b : Number} (h : S.WrittenAlike a b) :
    (∃ v, a = .integer v ∧ b = .integer v)
      ∨ ∃ x y s t, a = .real x ∧ b = .real y
        ∧ S.Equal (S.numeral s) (S.numeral t)
        ∧ Numeral.double? s = some x ∧ Numeral.double? t = some y := by
  obtain ⟨ha, hb, h⟩ := h
  cases a with
  | integer v =>
    rw [laws.integer_eq] at h
    cases b with
    | integer w =>
      rw [laws.integer_eq] at h
      exact .inl ⟨v, rfl, congrArg _ (laws.eq_of_integer v w h).symm⟩
    | real y =>
      obtain ⟨t, hnumber, ht, -⟩ := laws.real_eq y hb
      rw [hnumber] at h
      exact absurd h (laws.integer_marked v t ht)
  | real x =>
    obtain ⟨s, hnumber, hs, hx⟩ := laws.real_eq x ha
    rw [hnumber] at h
    cases b with
    | integer w =>
      rw [laws.integer_eq] at h
      exact absurd h (laws.marked_integer s w hs)
    | real y =>
      obtain ⟨t, hnumber', -, hy⟩ := laws.real_eq y hb
      rw [hnumber'] at h
      exact .inr ⟨x, y, s, t, rfl, rfl, h, hx, hy⟩

/-- **Whether a value was recorded is known**, and recorded values are alike. -/
theorem rel_record {x y : Option Number}
    (hx : ∀ n, x = some n → n.isFinite = true)
    (hy : ∀ n, y = some n → n.isFinite = true)
    (h : S.Equal (S.record x) (S.record y)) : Option.Rel S.WrittenAlike x y := by
  cases x with
  | none =>
    cases y with
    | none => exact .none
    | some b =>
      obtain ⟨token, hb⟩ := laws.exists_numeral (hy b rfl)
      exact absurd (hb ▸ h) (laws.null_numeral token)
  | some a =>
    cases y with
    | none =>
      obtain ⟨token, ha⟩ := laws.exists_numeral (hx a rfl)
      exact absurd (ha ▸ h) (laws.numeral_null token)
    | some b => exact .some ⟨hx a rfl, hy b rfl, h⟩

/-! ## Signals, messages and catalogues -/

/-- The names under which the fields of a signal are written. -/
def signalFields : List String :=
  ["name", "end_bit", "length", "factor", "offset", "minimum", "maximum",
    "description", "current_value"]

/-- The names under which the fields of a message are written. -/
def messageFields : List String :=
  ["arbitration_id", "family", "genus", "frame_bytes", "signals"]

/-- **Signals that are written to equal values are alike**, if their numbers are
finite. -/
theorem signal_alike {s t : Signal}
    (hs : ∀ n ∈ s.heldNumbers, n.isFinite = true)
    (ht : ∀ n ∈ t.heldNumbers, n.isFinite = true)
    (h : S.Equal (S.signal s) (S.signal t)) : s.Alike S.WrittenAlike t := by
  have hnodup : signalFields.Nodup := by decide
  rw [laws.signal_eq, laws.signal_eq] at h
  have hvalues := laws.values h rfl hnodup
  simp only [List.map_cons, List.map_nil, List.forall₂_cons] at hvalues
  obtain ⟨hname, hend, hlength, hfactor, hoffset, hmin, hmax, hdescription,
    hrecorded, -⟩ := hvalues
  obtain ⟨⟨hsf, hso, hsmin, hsmax⟩, hsv⟩ := Signal.forall_heldNumbers_iff.1 hs
  obtain ⟨⟨htf, hto, htmin, htmax⟩, htv⟩ := Signal.forall_heldNumbers_iff.1 ht
  exact ⟨laws.eq_of_string _ _ hname,
    laws.eq_of_uint16 hend, laws.eq_of_uint16 hlength,
    ⟨hsf, htf, hfactor⟩, ⟨hso, hto, hoffset⟩, ⟨hsmin, htmin, hmin⟩,
    ⟨hsmax, htmax, hmax⟩, laws.eq_of_string _ _ hdescription,
    laws.rel_record hsv htv hrecorded⟩

/-- **Messages that are written to equal values are alike**, if the numbers of
their signals are finite. -/
theorem message_alike {m n : Message}
    (hm : ∀ key s, m.signal? key = some s →
      ∀ x ∈ s.heldNumbers, x.isFinite = true)
    (hn : ∀ key s, n.signal? key = some s →
      ∀ x ∈ s.heldNumbers, x.isFinite = true)
    (h : S.Equal (S.message m) (S.message n)) : m.Alike S.WrittenAlike n := by
  have hnodup : messageFields.Nodup := by decide
  obtain ⟨_, heq, hmembers⟩ := laws.message_eq m
  obtain ⟨_, heq', hmembers'⟩ := laws.message_eq n
  rw [heq, heq'] at h
  have hvalues := laws.values h rfl hnodup
  simp only [List.map_cons, List.map_nil, List.forall₂_cons] at hvalues
  obtain ⟨hid, hfamily, hgenus, hbytes, hsignals, -⟩ := hvalues
  refine ⟨laws.eq_of_uint32 hid, laws.eq_of_string _ _ hfamily,
    laws.eq_of_string _ _ hgenus, laws.eq_of_uint32 hbytes, fun key => ?_⟩
  rcases rel_iff.1 (laws.rel_getElem? Function.injective_id hmembers hmembers'
    hsignals key) with ⟨hs, ht⟩ | ⟨s, t, hs, ht, hequal⟩
  · exact rel_iff.2 (.inl ⟨hs, ht⟩)
  · exact rel_iff.2 (.inr ⟨s, t, hs, ht,
      laws.signal_alike (hm key s hs) (hn key t ht) hequal⟩)

/-- **Catalogues that are written to equal values are alike**, if their numbers are
finite. -/
theorem alike {c d : Catalog} (hc : c.AllNumbers fun n => n.isFinite = true)
    (hd : d.AllNumbers fun n => n.isFinite = true)
    (h : S.Equal (S.catalog c) (S.catalog d)) : c.Alike S.WrittenAlike d := by
  obtain ⟨_, heq, hmembers⟩ := laws.catalog_eq c
  obtain ⟨_, heq', hmembers'⟩ := laws.catalog_eq d
  rw [heq, heq'] at h
  have hvalues := laws.values h rfl (List.nodup_singleton "messages")
  simp only [List.map_cons, List.map_nil, List.forall₂_cons] at hvalues
  intro id
  rcases rel_iff.1 (laws.rel_getElem? Numeral.key_injective hmembers hmembers'
    hvalues.1 id) with ⟨hm, hn⟩ | ⟨m, n, hm, hn, hequal⟩
  · exact rel_iff.2 (.inl ⟨hm, hn⟩)
  · exact rel_iff.2 (.inr ⟨m, n, hm, hn, laws.message_alike
      (fun key s => hc id m key s hm) (fun key s => hd id n key s hn) hequal⟩)

end Lawful

end Serializer

/-! ## Numbers compared by what is written -/

/-- **A number is known from its token**, with its kind and all of its bits: a
double is read back from it. -/
theorem Serializer.Lawful.eq_of_tokens {S : Serializer} (laws : S.Lawful)
    (tokens : S.ComparesTokens) {a b : Number} (h : S.WrittenAlike a b) :
    a = b := by
  rcases laws.alike_cases h with
    ⟨v, rfl, rfl⟩ | ⟨x, y, s, t, rfl, rfl, hequal, hx, hy⟩
  · rfl
  · obtain rfl := tokens s t hequal
    exact congrArg _ (Option.some.inj (hx.symm.trans hy))

/-- **What is not finite is lost**: it is written as no value is. -/
theorem Serializer.Lawful.signal_withValue {S : Serializer} (laws : S.Lawful)
    (s : Signal) {n : Number} (hn : n.isFinite = false) :
    S.signal (s.withValue (some n)) = S.signal (s.withValue none) := by
  have hnull : S.number n = S.null := by
    cases n with
    | integer v => exact absurd hn.symm Bool.false_ne_true
    | real x => exact laws.real_eq_null x hn
  have hrecord : S.record (some n) = S.record none := hnull
  rw [laws.signal_eq, laws.signal_eq]
  simp only [Signal.withValue, hrecord]

/-- **JSON tells catalogues apart**, whatever serializer writes it. If two
catalogues of finite numbers are written to values that are equal, with the members
of objects in any order and numbers compared by their tokens, then they are the
same: in the identifiers and names under which messages and signals are stored, in
all that these carry, in the kind and in every bit of each number, and in whether a
value was recorded. How they came about has no part in it. That the numbers are
finite is needed, since a recorded value that is not is written as if there were
none. -/
theorem Catalog.json_tells_apart {S : Serializer} (laws : S.Lawful)
    (tokens : S.ComparesTokens) :
    (∀ c d : Catalog, (c.AllNumbers fun n => n.isFinite = true) →
      (d.AllNumbers fun n => n.isFinite = true) →
      S.Equal (S.catalog c) (S.catalog d) → c = d)
    ∧ ∀ (s : Signal) (n : Number), n.isFinite = false →
      S.signal (s.withValue (some n)) = S.signal (s.withValue none) := by
  constructor
  · intro c d hc hd h
    have halike := laws.alike hc hd h
    exact (halike.imp fun _ _ => laws.eq_of_tokens tokens).eq
  · exact fun s _ => laws.signal_withValue s

namespace Catalog

/-- A catalogue with one signal, for which the zero of a sign is recorded. -/
def zeroRecorded (negative : Bool) : Catalog :=
  empty.insert ((Message.empty 1 "A" 8 "X").put "S"
    ⟨"S", 7, 8, .integer 1, .integer 0, .integer 0, .integer 255, "d",
      some (.real (.zero negative))⟩)

/-- Its numbers are finite. -/
theorem allNumbers_zeroRecorded (negative : Bool) :
    (zeroRecorded negative).AllNumbers fun n => n.isFinite = true := by
  intro id m key s hm hs
  rw [zeroRecorded, get?_insert, get?_empty] at hm
  split at hm
  · obtain rfl := Option.some.inj hm
    rw [Message.signal?_put, Message.signal?_empty] at hs
    split at hs
    · obtain rfl := Option.some.inj hs
      refine Signal.forall_heldNumbers_iff.2 ⟨⟨rfl, rfl, rfl, rfl⟩, fun n hn => ?_⟩
      obtain rfl := Option.some.inj hn
      rfl
    · exact absurd hs nofun
  · exact absurd hm nofun

/-- **JSON tells the two zeros apart**, although catalogues that differ in the sign
of a zero are equal. -/
theorem json_tells_apart_zeros :
    (Json.serializer Eq).Lawful ∧ (Json.serializer Eq).ComparesTokens
    ∧ ((zeroRecorded false).AllNumbers fun n => n.isFinite = true)
    ∧ ((zeroRecorded true).AllNumbers fun n => n.isFinite = true)
    ∧ (zeroRecorded false).sameAs (zeroRecorded true) = true
    ∧ ¬ (Json.serializer Eq).Equal
        ((Json.serializer Eq).catalog (zeroRecorded false))
        ((Json.serializer Eq).catalog (zeroRecorded true)) := by
  have hlaws := Json.lawful_serializer fun _ _ => Or.inl
  have htokens := Json.comparesTokens_serializer
  have hfalse := allNumbers_zeroRecorded false
  have htrue := allNumbers_zeroRecorded true
  have hne : zeroRecorded false ≠ zeroRecorded true := fun heq =>
    absurd (congrArg (fun c => c.signal? 1 "S") heq) (by decide +kernel)
  refine ⟨hlaws, htokens, hfalse, htrue, by decide +kernel, fun h => ?_⟩
  exact hne ((json_tells_apart hlaws htokens).1 _ _ hfalse htrue h)

end Catalog

/-! ## Numbers compared by what they denote -/

/-- **The same number but for the sign of a zero.** -/
def Number.SameButSign (a b : Number) : Prop :=
  a = b ∨ ∃ s t, a = .real (.zero s) ∧ b = .real (.zero t)

/-- A double with the code of a zero is one. -/
theorem Binary64.eq_zero_of_code {x : Binary64} (h : x.code = 0) :
    x = zero x.negative := by
  cases x
  obtain rfl := h
  rfl

/-- **A number is known from its value**, with its kind and all of its bits, unless
it is a zero. -/
theorem Serializer.Lawful.sameButSign {S : Serializer} (laws : S.Lawful)
    (values : S.ComparesValues) {a b : Number} (h : S.WrittenAlike a b) :
    a.SameButSign b := by
  rcases laws.alike_cases h with
    ⟨v, rfl, rfl⟩ | ⟨x, y, s, t, rfl, rfl, hequal, hx, hy⟩
  · exact .inl rfl
  · obtain ⟨-, hscaled⟩ :=
      Binary64.compare?_eq_some_iff.1
        (values s t hequal x y h.left h.right hx hy)
    rcases Binary64.scaled_eq_iff.1 (Int.compare_eq_eq.1 hscaled) with
      rfl | ⟨hzero, hzero'⟩
    · exact .inl rfl
    · exact .inr ⟨_, _, congrArg _ (Binary64.eq_zero_of_code hzero),
        congrArg _ (Binary64.eq_zero_of_code hzero')⟩

/-- **Compared by the values of numbers, JSON loses the signs of zeros at most**:
catalogues of finite numbers that are written to equal values are the same but for
these. -/
theorem Catalog.alike_of_comparesValues {S : Serializer} (laws : S.Lawful)
    (values : S.ComparesValues) {c d : Catalog}
    (hc : c.AllNumbers fun n => n.isFinite = true)
    (hd : d.AllNumbers fun n => n.isFinite = true)
    (h : S.Equal (S.catalog c) (S.catalog d)) :
    c.Alike Number.SameButSign d :=
  (laws.alike hc hd h).imp fun _ _ => laws.sameButSign values

/-- **These it does lose.** With numbers compared by their values, a signal for which
one zero is recorded is written to the same value as with the other. -/
theorem Json.loses_signs : (serializer Numeral.SameValue).Lawful
    ∧ (serializer Numeral.SameValue).ComparesValues
    ∧ ∀ s : Signal, (serializer Numeral.SameValue).Equal
        (ofSignal (s.withValue (some (.real (.zero false)))))
        (ofSignal (s.withValue (some (.real (.zero true))))) := by
  refine ⟨lawful_serializer fun _ _ h => .inr h.1, comparesValues_serializer,
    fun s => ?_⟩
  obtain ⟨hmarked, hread⟩ := Binary64.double?_token (x := .zero false) rfl
  obtain ⟨hmarked', hread'⟩ := Binary64.double?_token (x := .zero true) rfl
  have hvalue : Same Numeral.SameValue (ofNumber (.real (.zero false)))
      (ofNumber (.real (.zero true))) :=
    .numeral ⟨⟨hmarked, hmarked'⟩, _, _, hread, hread', by decide⟩
  refine .object (.refl _) ?_ ?_
  · simp only [List.map_cons, List.map_nil]
  · exact .cons (.refl _) <| .cons (.refl _) <| .cons (.refl _) <|
      .cons (.refl _) <| .cons (.refl _) <| .cons (.refl _) <|
      .cons (.refl _) <| .cons (.refl _) <| .cons hvalue .nil

end CanCatalog
