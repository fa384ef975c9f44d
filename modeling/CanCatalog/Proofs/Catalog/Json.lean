import CanCatalog.Proofs.Catalog.Serializer
import CanCatalog.Proofs.Number.ReadBack

/-!
# JSON

The laws of serializers are kept by this one, which writes JSON as it is usually
written. Its values are compared without the order in which the members of objects
stand (`Json.Same`). For numbers a relation of tokens is given, which may be that
they are the same or that they denote the same double. The laws hold with either,
because neither of them takes an integer for anything else.

The token of a double is its shortest decimal, from which it is read back. A double
that is an integer is given a place behind the point, with a zero in it, because
otherwise it would have the token of an integer. There are no exponents, so the token
of a very large double is longer than it need be.
-/

namespace CanCatalog

open Numeral (IsMarked Sign)

/-! ## Tokens of doubles -/

/-- The same decimal with a place behind the point, which may hold a zero. -/
def Decimal.pointed (d : Decimal) : Decimal :=
  if d.reduced.places = 0 then ⟨d.reduced.digits * 10, 1⟩ else d.reduced

/-- There is a point. -/
theorem Decimal.places_pointed (d : Decimal) : d.pointed.places ≠ 0 := by
  unfold pointed
  split
  · exact Nat.one_ne_zero
  · assumption

/-- It makes no difference to the value. -/
theorem Decimal.value_pointed (d : Decimal) : d.pointed.value = d.value := by
  rw [← d.value_reduced]
  unfold pointed
  split
  · next h =>
    rw [value_eq_div, value_eq_div, h, Nat.pow_one, Nat.pow_zero, Nat.cast_mul,
      Nat.cast_one, div_one]
    exact mul_div_cancel_right₀ _ (Nat.cast_ne_zero.2 (by decide))
  · rfl

/-- **The token of a finite double**: its shortest decimal with a point. -/
def Binary64.token (x : Binary64) : List Char :=
  (if x.negative then ['-'] else []) ++ x.shortest.pointed.positional

/-- **A double is read back from its token**, which has a mark. -/
theorem Binary64.double?_token {x : Binary64} (hx : x.isFinite = true) :
    IsMarked x.token ∧ Numeral.double? x.token = some x := by
  obtain ⟨whole, fraction, htext, hdigits, hlength⟩ :=
    Decimal.exists_positional_eq x.shortest.places_pointed
  have hform : Numeral.DecimalForm x.shortest.pointed.positional
      x.shortest.pointed.digits (-x.shortest.pointed.places) := by
    rw [htext, ← hlength]
    exact ⟨_, [], _, 0, .point hdigits, .absent, (List.append_nil _).symm,
      (Int.zero_sub _).symm⟩
  have hsign : Sign x.negative (if x.negative then ['-'] else []) := by
    cases x.negative with
    | false => exact .absent
    | true => exact .minus
  constructor
  · refine .inl (List.mem_append_right _ ?_)
    rw [htext]
    exact List.mem_append_right _ List.mem_cons_self
  · rw [token, Numeral.double?_append hsign hform]
    exact congrArg some ((ofDecimal_congr x.shortest.value_pointed _).trans
      (readFrom_shortest hx))

example : (Binary64.zero true).token = "-0.0".toList := by decide +kernel

/-- **Tokens of doubles with one value.** -/
def Numeral.SameValue (a b : List Char) : Prop :=
  (IsMarked a ∧ IsMarked b) ∧ ∃ x y, double? a = some x ∧ double? b = some y
    ∧ x.compare? y = some .eq

/-- The token of an integer has no mark. -/
theorem Numeral.not_isMarked_integerText (v : Int) :
    ¬ IsMarked (Number.integerText v) := by
  have hnot {c : Char} (hc : isIntegerChar c = false) :
      c ∉ Number.integerText v := fun hmem =>
    Bool.false_ne_true (hc.symm.trans (isIntegerChar_of_mem_integerText hmem))
  rintro (h | h | h)
  · exact hnot (by decide) h
  · exact hnot (by decide) h
  · exact hnot (by decide) h

/-! ## Values -/

/-- **JSON values**, numbers by their tokens. -/
inductive Json where
  /-- The word `null`. -/
  | null
  /-- A number. -/
  | numeral (token : List Char)
  /-- A string. -/
  | string (text : String)
  /-- An object, with its members in the order in which they are written. -/
  | object (members : List (String × Json))

namespace Json

/-- **The same value but for the order of members**, where numbers may have tokens
that are related. Objects are the same if the members of one, in some order, have
the names of the other, one after the other, and the same values. -/
inductive Same (R : List Char → List Char → Prop) : Json → Json → Prop where
  /-- A value is the same as itself. -/
  | refl (v : Json) : Same R v v
  /-- Numbers are compared by their tokens. -/
  | numeral {a b : List Char} (h : R a b) : Same R (.numeral a) (.numeral b)
  /-- Objects are compared name by name. -/
  | object {xs ys zs : List (String × Json)} (order : xs.Perm ys)
    (names : ys.map Prod.fst = zs.map Prod.fst)
    (values : List.Forall₂ (Same R) (ys.map Prod.snd) (zs.map Prod.snd)) :
    Same R (.object xs) (.object zs)

variable {R : List Char → List Char → Prop} {xs ys zs : List (String × Json)}

/-- Of two lists of members with the same names and related values, each member
of the first has one in the second. -/
theorem exists_member_of_forall₂ {P : Json → Json → Prop}
    (names : ys.map Prod.fst = zs.map Prod.fst)
    (values : List.Forall₂ P (ys.map Prod.snd) (zs.map Prod.snd)) :
    ∀ y ∈ ys, ∃ z ∈ zs, z.1 = y.1 ∧ P y.2 z.2 := by
  induction ys generalizing zs with
  | nil => exact fun y hy => absurd hy List.not_mem_nil
  | cons y ys ih =>
    cases zs with
    | nil => exact absurd names nofun
    | cons z zs =>
      obtain ⟨hname, hnames⟩ := List.cons.inj names
      obtain ⟨hvalue, hvalues⟩ := List.forall₂_cons.1 values
      intro y' hy'
      rcases List.mem_cons.1 hy' with rfl | hy'
      · exact ⟨z, List.mem_cons_self, hname.symm, hvalue⟩
      · obtain ⟨z', hz', h⟩ := ih hnames hvalues y' hy'
        exact ⟨z', List.mem_cons_of_mem z hz', h⟩

/-- **Each member of an object has one in the other**, of the same name and with
the same value. -/
theorem Same.exists_member (h : Same R (.object xs) (.object zs)) :
    (∀ x ∈ xs, ∃ z ∈ zs, z.1 = x.1 ∧ Same R x.2 z.2)
      ∧ ∀ z ∈ zs, ∃ x ∈ xs, x.1 = z.1 ∧ Same R x.2 z.2 := by
  cases h with
  | refl =>
    exact ⟨fun x hx => ⟨x, hx, rfl, .refl _⟩, fun x hx => ⟨x, hx, rfl, .refl _⟩⟩
  | object order names values =>
    refine ⟨fun x hx => ?_, fun z hz => ?_⟩
    · exact exists_member_of_forall₂ names values x (order.mem_iff.1 hx)
    · obtain ⟨y, hy, h⟩ := exists_member_of_forall₂ names.symm values.flip z hz
      exact ⟨y, order.mem_iff.2 hy, h⟩

/-- Numbers are the same if their tokens are, or if these are related. -/
theorem Same.eq_or_rel {a b : List Char}
    (h : Same R (.numeral a) (.numeral b)) : a = b ∨ R a b := by
  cases h with
  | refl => exact .inl rfl
  | numeral h => exact .inr h

/-! ## What is written -/

/-- A natural number. -/
def ofNat (n : Nat) : Json := .numeral (Number.integerText n)

/-- A number, or `null` if it is not finite. -/
def ofNumber : Number → Json
  | .integer v => .numeral (Number.integerText v.toInt)
  | .real x => if x.isFinite then .numeral x.token else .null

/-- A signal. -/
def ofSignal (s : Signal) : Json :=
  .object [
    ("name", .string s.name),
    ("end_bit", ofNat s.endBit.toNat),
    ("length", ofNat s.length.toNat),
    ("factor", ofNumber s.factor),
    ("offset", ofNumber s.offset),
    ("minimum", ofNumber s.minimum),
    ("maximum", ofNumber s.maximum),
    ("description", .string s.description),
    ("current_value", s.value.elim .null ofNumber)]

/-- A message, with its signals in the order of their names. -/
def ofMessage (m : Message) : Json :=
  .object [
    ("arbitration_id", ofNat m.id.toNat),
    ("family", .string m.family),
    ("genus", .string m.genus),
    ("frame_bytes", ofNat m.frameBytes.toNat),
    ("signals", .object (m.signals.toList.map fun entry =>
      (entry.1, ofSignal entry.2)))]

/-- A catalogue, with its messages in the order of their identifiers. -/
def ofCatalog (c : Catalog) : Json :=
  .object [
    ("messages", .object (c.messages.toList.map fun entry =>
      (String.ofList (Number.integerText entry.1.toNat), ofMessage entry.2)))]

/-- **A serializer**, with a relation of the tokens of equal numbers. -/
def serializer (R : List Char → List Char → Prop) : Serializer where
  Value := Json
  null := .null
  numeral := .numeral
  string := .string
  object := .object
  Equal := Same R
  number := ofNumber
  signal := ofSignal
  message := ofMessage
  catalog := ofCatalog

/-- **It is lawful**, if it compares integers by their tokens. -/
theorem lawful_serializer
    (hR : ∀ a b, R a b → a = b ∨ IsMarked a ∧ IsMarked b) :
    (serializer R).Lawful := by
  have hcases {a b : List Char} (h : Same R (.numeral a) (.numeral b)) :
      a = b ∨ IsMarked a ∧ IsMarked b := h.eq_or_rel.elim .inl (hR a b)
  have hinteger {v : Int} {a : List Char} (ha : IsMarked a) :
      Number.integerText v ≠ a := fun heq =>
    Numeral.not_isMarked_integerText v (heq ▸ ha)
  exact {
    catalog_eq := fun _ => ⟨_, rfl, .refl _⟩
    message_eq := fun _ => ⟨_, rfl, .refl _⟩
    signal_eq := fun _ => rfl
    integer_eq := fun _ => rfl
    real_eq := fun x hx => ⟨x.token, if_pos hx, Binary64.double?_token hx⟩
    real_eq_null := fun x hx => if_neg (Bool.eq_false_iff.1 hx)
    null_numeral := fun _ => nofun
    numeral_null := fun _ => nofun
    eq_of_string := fun a b h => by
      cases h
      rfl
    eq_of_integer := fun v w h => (hcases h).elim
      (fun heq => Int64.toInt_inj.1 (Numeral.integerText_injective heq))
      fun hmarked => absurd rfl (hinteger hmarked.1)
    integer_marked := fun v token htoken h => (hcases h).elim (hinteger htoken)
      fun hmarked => absurd rfl (hinteger hmarked.1)
    marked_integer := fun token v htoken h => (hcases h).elim
      (fun heq => hinteger htoken heq.symm)
      fun hmarked => absurd rfl (hinteger hmarked.2)
    exists_member := fun _ _ _ _ h => Same.exists_member h }

/-! ## What is compared of numbers -/

/-- Numbers can be compared by their tokens. -/
theorem comparesTokens_serializer : (serializer Eq).ComparesTokens :=
  fun _ _ h => h.eq_or_rel.elim id id

/-- Numbers can be compared by their values. -/
theorem comparesValues_serializer :
    (serializer Numeral.SameValue).ComparesValues := by
  intro a b h x y hx hy hax hby
  rcases h.eq_or_rel with rfl | ⟨-, x', y', hax', hby', hequal⟩
  · obtain rfl := Option.some.inj (hax.symm.trans hby)
    have hnumber := Binary64.isNaN_of_isFinite hx
    exact Binary64.compare?_eq_some_iff.2
      ⟨⟨hnumber, hnumber⟩, Int.compare_eq_eq.2 rfl⟩
  · obtain rfl := Option.some.inj (hax.symm.trans hax')
    obtain rfl := Option.some.inj (hby.symm.trans hby')
    exact hequal

end Json

end CanCatalog
