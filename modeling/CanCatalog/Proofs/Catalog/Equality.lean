import CanCatalog.Catalog.Basic
import CanCatalog.Proofs.Number.Order
import CanCatalog.Proofs.Outcome
import CanCatalog.Reading.Source
import Mathlib.Data.List.Perm.Subperm

/-!
# Equality of catalogues

Two catalogues are equal if they are the same but for their numbers, and numbers
that stand in the same place are equal. This is said here with any relation in
the place of equality (`Catalog.Alike`), because it is the numbers that decide
about the laws: what holds of a relation of numbers holds of the relation of
catalogues that is made of it, and what fails fails where the numbers are.

So equality of catalogues is symmetric. It is transitive as well, unless one
number on the way is a double and those on both sides of it are different
integers which it equals; and by the laws of numbers these are integers that
doubles do not tell apart, at least `2^53` in magnitude.
-/

namespace CanCatalog

/-! ## Values that may be missing -/

section Options

variable {α β γ : Type} {x : Option α} {y : Option β} {z : Option γ}

/-- Related options are both missing, or there are related values. -/
theorem rel_iff {R : α → β → Prop} :
    Option.Rel R x y
      ↔ x = none ∧ y = none ∨ ∃ a b, x = some a ∧ y = some b ∧ R a b := by
  constructor
  · intro h
    cases h with
    | none => exact .inl ⟨rfl, rfl⟩
    | some hR => exact .inr ⟨_, _, rfl, rfl, hR⟩
  · rintro (⟨rfl, rfl⟩ | ⟨a, b, rfl, rfl, hR⟩)
    · exact .none
    · exact .some hR

/-- Options are related the other way around if values are. -/
theorem rel_symm {R : α → β → Prop} {S : β → α → Prop}
    (hRS : ∀ a b, R a b → S b a) (h : Option.Rel R x y) : Option.Rel S y x := by
  cases h with
  | none => exact .none
  | some hR => exact .some (hRS _ _ hR)

/-- What follows for values follows for options. -/
theorem rel_imp {R S : α → β → Prop} (hRS : ∀ a b, R a b → S a b)
    (h : Option.Rel R x y) : Option.Rel S x y := by
  cases h with
  | none => exact .none
  | some hR => exact .some (hRS _ _ hR)

/-- What follows for three values follows for three options. -/
theorem rel_combine {R : α → β → Prop} {S : β → γ → Prop} {T U : α → γ → Prop}
    (hRSTU : ∀ a b c, R a b → S b c → T a c → U a c) (hR : Option.Rel R x y)
    (hS : Option.Rel S y z) (hT : Option.Rel T x z) : Option.Rel U x z := by
  cases hR with
  | none =>
    cases hS with
    | none => exact .none
  | some hab =>
    cases hS with
    | some hbc =>
      cases hT with
      | some hac => exact .some (hRSTU _ _ _ hab hbc hac)

end Options

/-! ## Tables -/

section Tables

variable {α β : Type} [Ord α] [Std.TransOrd α] [Std.LawfulEqOrd α]
variable {a b : Std.ExtTreeMap α β compare}

/-- The keys of a table are among those of another. -/
theorem keys_subset_iff : a.keys ⊆ b.keys ↔ ∀ k ∈ a, k ∈ b := by
  simp only [List.subset_def, Std.ExtTreeMap.mem_keys]

/-- **A table that is no larger has no more keys**: where there is room for the
keys of one table only, there are no others. -/
theorem mem_of_size_eq (hsub : ∀ k ∈ a, k ∈ b) (hsize : a.size = b.size) {k : α}
    (hk : k ∈ b) : k ∈ a := by
  have hperm : a.keys.Perm b.keys := by
    refine (Std.ExtTreeMap.nodup_keys.subperm (keys_subset_iff.2 hsub)).perm_of_length_le ?_
    rw [Std.ExtTreeMap.length_keys, Std.ExtTreeMap.length_keys, hsize]
  rw [← Std.ExtTreeMap.mem_keys] at hk ⊢
  exact hperm.mem_iff.2 hk

/-- Tables with the same keys are of one size. -/
theorem size_eq_of_mem_iff (h : ∀ k, k ∈ a ↔ k ∈ b) : a.size = b.size := by
  rw [← Std.ExtTreeMap.length_keys, ← Std.ExtTreeMap.length_keys]
  exact Nat.le_antisymm
    (Std.ExtTreeMap.nodup_keys.length_le_of_subset
      (keys_subset_iff.2 fun k => (h k).1))
    (Std.ExtTreeMap.nodup_keys.length_le_of_subset
      (keys_subset_iff.2 fun k => (h k).2))

/-- **Tables agree if look-ups do**: under each key there is nothing in both, or
there are entries that agree. -/
theorem tablesAgree_iff {same : β → β → Bool} :
    tablesAgree same a b = true
      ↔ ∀ k : α, Option.Rel (fun x y => same x y = true) a[k]? b[k]? := by
  unfold tablesAgree
  rw [Bool.and_eq_true, beq_iff_eq, List.all_eq_true]
  constructor
  · rintro ⟨hsize, hall⟩
    have hfound : ∀ k x, a[k]? = some x →
        ∃ y, b[k]? = some y ∧ same x y = true := fun k x hx =>
      (Option.any_eq_true _ _).1
        (hall (k, x) (Std.ExtTreeMap.mem_toList_iff_getElem?_eq_some.2 hx))
    have hsub : ∀ k ∈ a, k ∈ b := by
      intro k hk
      rw [Std.ExtTreeMap.mem_iff_isSome_getElem?, Option.isSome_iff_exists] at hk ⊢
      obtain ⟨x, hx⟩ := hk
      obtain ⟨y, hy, -⟩ := hfound k x hx
      exact ⟨y, hy⟩
    intro k
    cases hx : a[k]? with
    | some x =>
      obtain ⟨y, hy, hsame⟩ := hfound k x hx
      rw [hy]
      exact .some hsame
    | none =>
      cases hy : b[k]? with
      | none => exact .none
      | some y =>
        have hk : k ∈ a := mem_of_size_eq hsub hsize
          (Std.ExtTreeMap.mem_iff_isSome_getElem?.2 (by rw [hy]; rfl))
        rw [Std.ExtTreeMap.mem_iff_isSome_getElem?, hx] at hk
        exact absurd hk Bool.false_ne_true
  · intro h
    refine ⟨size_eq_of_mem_iff fun k => ?_, ?_⟩
    · rw [Std.ExtTreeMap.mem_iff_isSome_getElem?,
        Std.ExtTreeMap.mem_iff_isSome_getElem?]
      rcases rel_iff.1 (h k) with ⟨hx, hy⟩ | ⟨x, y, hx, hy, -⟩
      · rw [hx, hy]
      · rw [hx, hy, Option.isSome_some, Option.isSome_some]
    · rintro ⟨k, x⟩ hmem
      have hx := Std.ExtTreeMap.mem_toList_iff_getElem?_eq_some.1 hmem
      rcases rel_iff.1 (h k) with ⟨hnone, -⟩ | ⟨x', y, hx', hy, hsame⟩
      · exact absurd (hx.symm.trans hnone) nofun
      · obtain rfl := Option.some.inj (hx.symm.trans hx')
        exact (Option.any_eq_true _ _).2 ⟨y, hy, hsame⟩

end Tables

/-! ## The same but for numbers -/

variable {R S T U : Number → Number → Prop}

/-- **Signals that are the same but for their numbers**, which are related. -/
structure Signal.Alike (R : Number → Number → Prop) (s t : Signal) : Prop where
  /-- The names are the same. -/
  name : s.name = t.name
  /-- The positions are the same. -/
  endBit : s.endBit = t.endBit
  /-- The numbers of bits are the same. -/
  length : s.length = t.length
  /-- The factors are related. -/
  factor : R s.factor t.factor
  /-- The offsets are related. -/
  offset : R s.offset t.offset
  /-- The least values are related. -/
  minimum : R s.minimum t.minimum
  /-- The largest values are related. -/
  maximum : R s.maximum t.maximum
  /-- The descriptions are the same. -/
  description : s.description = t.description
  /-- No value is recorded, or the recorded values are related. -/
  value : Option.Rel R s.value t.value

/-- **Messages that are the same but for numbers**, which are related. -/
structure Message.Alike (R : Number → Number → Prop) (m n : Message) :
    Prop where
  /-- The identifiers are the same. -/
  id : m.id = n.id
  /-- The families are the same. -/
  family : m.family = n.family
  /-- The names are the same. -/
  genus : m.genus = n.genus
  /-- The numbers of bytes are the same. -/
  frameBytes : m.frameBytes = n.frameBytes
  /-- The signals are alike, name by name. -/
  signals : ∀ name, Option.Rel (Signal.Alike R) (m.signal? name)
    (n.signal? name)

/-- **Catalogues that are the same but for numbers**, which are related. -/
def Catalog.Alike (R : Number → Number → Prop) (c d : Catalog) : Prop :=
  ∀ id, Option.Rel (Message.Alike R) (c.get? id) (d.get? id)

namespace Signal.Alike

variable {s t r : Signal}

/-- Signals are alike the other way around if numbers are related so. -/
theorem symm (h : s.Alike R t) (hRS : ∀ a b, R a b → S b a) : t.Alike S s where
  name := h.name.symm
  endBit := h.endBit.symm
  length := h.length.symm
  factor := hRS _ _ h.factor
  offset := hRS _ _ h.offset
  minimum := hRS _ _ h.minimum
  maximum := hRS _ _ h.maximum
  description := h.description.symm
  value := rel_symm hRS h.value

/-- What follows for numbers follows for signals. -/
theorem imp (h : s.Alike R t) (hRS : ∀ a b, R a b → S a b) : s.Alike S t where
  __ := h
  factor := hRS _ _ h.factor
  offset := hRS _ _ h.offset
  minimum := hRS _ _ h.minimum
  maximum := hRS _ _ h.maximum
  value := rel_imp hRS h.value

/-- What follows for three numbers follows for three signals. -/
theorem combine (hR : s.Alike R t) (hS : t.Alike S r) (hT : s.Alike T r)
    (hRSTU : ∀ a b c, R a b → S b c → T a c → U a c) : s.Alike U r where
  __ := hT
  factor := hRSTU _ _ _ hR.factor hS.factor hT.factor
  offset := hRSTU _ _ _ hR.offset hS.offset hT.offset
  minimum := hRSTU _ _ _ hR.minimum hS.minimum hT.minimum
  maximum := hRSTU _ _ _ hR.maximum hS.maximum hT.maximum
  value := rel_combine hRSTU hR.value hS.value hT.value

/-- Signals with the same numbers are the same. -/
theorem eq (h : s.Alike (· = ·) t) : s = t := by
  have hvalue : s.value = t.value := by
    rcases rel_iff.1 h.value with ⟨hs, ht⟩ | ⟨a, b, hs, ht, rfl⟩
    · rw [hs, ht]
    · rw [hs, ht]
  cases s
  cases t
  rw [mk.injEq]
  exact ⟨h.name, h.endBit, h.length, h.factor, h.offset, h.minimum, h.maximum,
    h.description, hvalue⟩

end Signal.Alike

namespace Message.Alike

variable {m n p : Message}

theorem symm (h : m.Alike R n) (hRS : ∀ a b, R a b → S b a) : n.Alike S m where
  id := h.id.symm
  family := h.family.symm
  genus := h.genus.symm
  frameBytes := h.frameBytes.symm
  signals name := rel_symm (fun _ _ hs => hs.symm hRS) (h.signals name)

theorem imp (h : m.Alike R n) (hRS : ∀ a b, R a b → S a b) : m.Alike S n where
  __ := h
  signals name := rel_imp (fun _ _ hs => hs.imp hRS) (h.signals name)

theorem combine (hR : m.Alike R n) (hS : n.Alike S p) (hT : m.Alike T p)
    (hRSTU : ∀ a b c, R a b → S b c → T a c → U a c) : m.Alike U p where
  __ := hT
  signals name :=
    rel_combine (fun _ _ _ hs hs' hs'' => hs.combine hs' hs'' hRSTU)
      (hR.signals name) (hS.signals name) (hT.signals name)

theorem eq (h : m.Alike (· = ·) n) : m = n := by
  have hsignals : m.signals = n.signals := by
    refine Std.ExtTreeMap.ext_getElem? fun name => ?_
    show m.signal? name = n.signal? name
    rcases rel_iff.1 (h.signals name) with ⟨hs, ht⟩ | ⟨s, t, hs, ht, heq⟩
    · rw [hs, ht]
    · rw [hs, ht, heq.eq]
  cases m
  cases n
  rw [mk.injEq]
  exact ⟨h.id, h.genus, h.frameBytes, h.family, hsignals⟩

end Message.Alike

namespace Catalog.Alike

variable {c d e : Catalog}

/-- **Catalogues are alike the other way around** if numbers are related so. -/
theorem symm (h : c.Alike R d) (hRS : ∀ a b, R a b → S b a) : d.Alike S c :=
  fun id => rel_symm (fun _ _ hm => hm.symm hRS) (h id)

/-- **What follows for numbers follows for catalogues.** -/
theorem imp (h : c.Alike R d) (hRS : ∀ a b, R a b → S a b) : c.Alike S d :=
  fun id => rel_imp (fun _ _ hm => hm.imp hRS) (h id)

/-- **What follows for three numbers follows for three catalogues.** -/
theorem combine (hR : c.Alike R d) (hS : d.Alike S e) (hT : c.Alike T e)
    (hRSTU : ∀ a b c, R a b → S b c → T a c → U a c) : c.Alike U e :=
  fun id => rel_combine (fun _ _ _ hm hm' hm'' => hm.combine hm' hm'' hRSTU)
    (hR id) (hS id) (hT id)

/-- **Catalogues with the same numbers are the same.** -/
theorem eq (h : c.Alike (· = ·) d) : c = d := by
  refine ext_get? fun id => ?_
  rcases rel_iff.1 (h id) with ⟨hm, hn⟩ | ⟨m, n, hm, hn, heq⟩
  · rw [hm, hn]
  · rw [hm, hn, heq.eq]

end Catalog.Alike

/-! ## Equality -/

/-- **Numbers of one value.** -/
def Number.Same (a b : Number) : Prop := a.sameAs b = true

/-- Recorded values agree if they are equal or missing. -/
theorem recordsAgree_iff {x y : Option Number} :
    recordsAgree x y = true ↔ Option.Rel Number.Same x y := by
  rw [rel_iff]
  cases x with
  | none =>
    cases y with
    | none => simp [recordsAgree]
    | some b => simp [recordsAgree]
  | some a =>
    cases y with
    | none => simp [recordsAgree]
    | some b => simp [recordsAgree, Number.Same]

/-- **Equal signals are alike**, with equal numbers. -/
theorem Signal.sameAs_iff {s t : Signal} :
    s.sameAs t = true ↔ s.Alike Number.Same t := by
  unfold Signal.sameAs
  simp only [Bool.and_eq_true, beq_iff_eq, recordsAgree_iff]
  constructor
  · rintro ⟨⟨⟨⟨⟨⟨⟨⟨hname, hend⟩, hlength⟩, hfactor⟩, hoffset⟩, hmin⟩, hmax⟩,
      hdescription⟩, hvalue⟩
    exact ⟨hname, hend, hlength, hfactor, hoffset, hmin, hmax, hdescription,
      hvalue⟩
  · intro h
    exact ⟨⟨⟨⟨⟨⟨⟨⟨h.name, h.endBit⟩, h.length⟩, h.factor⟩, h.offset⟩,
      h.minimum⟩, h.maximum⟩, h.description⟩, h.value⟩

/-- **Equal messages are alike**, with equal numbers. -/
theorem Message.sameAs_iff {m n : Message} :
    m.sameAs n = true ↔ m.Alike Number.Same n := by
  unfold Message.sameAs
  simp only [Bool.and_eq_true, beq_iff_eq, tablesAgree_iff, Signal.sameAs_iff]
  constructor
  · rintro ⟨⟨⟨⟨hid, hfamily⟩, hgenus⟩, hbytes⟩, hsignals⟩
    exact ⟨hid, hfamily, hgenus, hbytes, hsignals⟩
  · intro h
    exact ⟨⟨⟨⟨h.id, h.family⟩, h.genus⟩, h.frameBytes⟩, h.signals⟩

/-- **Equal catalogues are alike**, with equal numbers. -/
theorem Catalog.sameAs_iff {c d : Catalog} :
    c.sameAs d = true ↔ c.Alike Number.Same d := by
  unfold Catalog.sameAs Catalog.Alike
  simp only [tablesAgree_iff, Message.sameAs_iff]
  exact Iff.rfl

namespace Catalog

variable {c d e : Catalog}

/-- **Equality of catalogues is symmetric.** -/
theorem sameAs_symm (h : c.sameAs d = true) : d.sameAs c = true :=
  sameAs_iff.2 ((sameAs_iff.1 h).symm fun a b hab =>
    (Number.sameAs_comm b a).trans hab)

/-- **Equality of catalogues is transitive unless it comes to merged
integers.** -/
theorem sameAs_trans_iff (hcd : c.sameAs d = true) (hde : d.sameAs e = true) :
    c.sameAs e = true ↔ c.Alike (fun a b => ¬ a.Merged b) e := by
  rw [sameAs_iff] at hcd hde ⊢
  constructor
  · exact fun h => h.imp fun a b hab hmerged => hmerged.not_sameAs hab
  · exact fun h => hcd.combine hde h fun a b c hab hbc =>
      (Number.sameAs_trans_iff hab hbc).2

/-- **The laws of comparison.** Equality of numbers is symmetric, and it is the
equality of the order; being below is transitive, and turned around it is being
above. Equality is transitive unless it comes to merged integers, and what is
equal to the smaller of two numbers is smaller unless it is a double and the two
are merged; then it equals both. Merged integers are at least `2^53` in
magnitude. Of catalogues, equality is symmetric, and it is transitive unless it
comes to merged integers in the same place. -/
theorem laws_of_comparison :
    (∀ a b c : Number,
      (a.sameAs b = true → b.sameAs a = true)
      ∧ (a.sameAs b = true → b.sameAs c = true →
          (a.sameAs c = true ↔ ¬ a.Merged c))
      ∧ (a.below b = true → b.below c = true → a.below c = true)
      ∧ (a.sameAs b = a.equals b
        ∧ (a.equals b = true ↔ a.compare? b = some .eq))
      ∧ (a.below b = true ↔ b.above a = true)
      ∧ (a.sameAs b = true → b.below c = true →
          (a.below c = true ↔ ¬ (a.isInteger = false ∧ b.Merged c))
          ∧ (a.isInteger = false ∧ b.Merged c → a.sameAs c = true)))
    ∧ (∀ u v : Int64, (Number.integer u).Merged (.integer v) →
        2 ^ 53 ≤ u.toInt.natAbs ∧ 2 ^ 53 ≤ v.toInt.natAbs)
    ∧ ∀ c d e : Catalog,
      (c.sameAs d = true → d.sameAs c = true)
      ∧ (c.sameAs d = true → d.sameAs e = true →
          (c.sameAs e = true ↔ c.Alike (fun a b => ¬ a.Merged b) e)) := by
  refine ⟨fun a b c => ⟨(Number.sameAs_comm b a).trans,
    Number.sameAs_trans_iff, Number.below_trans, ⟨?_, Number.equals_iff⟩, ?_,
    Number.below_of_sameAs_iff⟩, fun u v => Number.Merged.natAbs_le,
    fun c d e => ⟨sameAs_symm, sameAs_trans_iff⟩⟩
  · rw [Bool.eq_iff_iff, Number.equals_iff]
    exact beq_iff_eq
  · rw [Number.below_eq_above]

/-- A text with one signal, whose factor is the given word. -/
def textScaledBy (factor : String) : List Char :=
  ("BO_ 1 A: 8 X\nSG_ S : 0|8 (" ++ factor ++ ",0) [0|1] d\n").toList

/-- **Where transitivity ends.** The double `2^53` equals the integer `2^53` and
the next integer, of which one is below the other; so it is equal to the smaller
one and not below the larger one. Three texts that differ in a factor only, which
is the one or the other of these numbers, are read as catalogues of which the
first equals the second and the second the third, and not the first the third. -/
theorem equal_through_a_double :
    ((Number.integer 9007199254740992).sameAs
          (.real (Binary64.ofInt 9007199254740992)) = true
        ∧ (Number.real (Binary64.ofInt 9007199254740992)).sameAs
          (.integer 9007199254740993) = true
        ∧ (Number.integer 9007199254740992).sameAs
          (.integer 9007199254740993) = false)
      ∧ ((Number.real (Binary64.ofInt 9007199254740992)).sameAs
          (.integer 9007199254740992) = true
        ∧ (Number.integer 9007199254740992).below
          (.integer 9007199254740993) = true
        ∧ (Number.real (Binary64.ofInt 9007199254740992)).below
          (.integer 9007199254740993) = false)
      ∧ ∃ c d e : Catalog,
        (Reading.ofText .default (textScaledBy "9007199254740992")).outcome
            = .ok c
        ∧ (Reading.ofText .default (textScaledBy "9007199254740992.0")).outcome
            = .ok d
        ∧ (Reading.ofText .default (textScaledBy "9007199254740993")).outcome
            = .ok e
        ∧ c.sameAs d = true ∧ d.sameAs e = true ∧ c.sameAs e = false := by
  refine ⟨by decide +kernel, by decide +kernel, ?_⟩
  have hread :
      ((Reading.ofText .default (textScaledBy "9007199254740992")).outcome.toOption.any
        fun c =>
          (Reading.ofText .default (textScaledBy "9007199254740992.0")).outcome.toOption.any
        fun d =>
          (Reading.ofText .default (textScaledBy "9007199254740993")).outcome.toOption.any
        fun e => c.sameAs d && d.sameAs e && !c.sameAs e) = true := by
    decide +kernel
  obtain ⟨c, hc, hread⟩ := Except.exists_of_any hread
  obtain ⟨d, hd, hread⟩ := Except.exists_of_any hread
  obtain ⟨e, he, hread⟩ := Except.exists_of_any hread
  simp only [Bool.and_eq_true, Bool.not_eq_true'] at hread
  exact ⟨c, d, e, hc, hd, he, hread.1.1, hread.1.2, hread.2⟩

end Catalog

end CanCatalog
