import CanCatalog.Number
import CanCatalog.Proofs.Binary64.Nearest

/-!
# The order of numbers

Numbers of one kind are compared exactly, and numbers of different kinds as
doubles. So a comparison goes by one of two rules, and a law about three numbers
may have to combine both. What keeps them together is that rounding keeps the
order: in all cases a comparison is one of the rounded values, except that
integers with the same rounded value are still told apart
(`below_iff`, `sameAs_iff`).

Most laws of an order hold. Being below is transitive, and turning a comparison
around turns its answer around. But equality is coarser between kinds than it
is among integers: beyond `2^53` a double may equal two different integers, and
these do not equal each other. Such integers are *merged* (`Merged`), and where
they occur is exactly where laws fail. Equality passes through a double from
one number to another unless it comes to merged integers, and what is equal can
be put for what is smaller unless a double is put for one of two merged
integers.
-/

namespace CanCatalog

namespace Binary64

/-- Whether this is one of the two zeros. -/
def isZero (x : Binary64) : Bool := x.code == 0

/-- **Equality of doubles by their codes**: the same number, or two zeros. -/
def equals (x y : Binary64) : Bool :=
  !x.isNaN && !y.isNaN && (x == y || x.isZero && y.isZero)

/-- Two doubles that are numbers compare as their values do. -/
theorem compare?_eq_some_iff {x y : Binary64} {o : Ordering} :
    x.compare? y = some o
      ↔ (x.isNaN = false ∧ y.isNaN = false) ∧ compare x.scaled y.scaled = o := by
  unfold compare?
  rw [Option.ite_none_left_eq_some, Option.some_inj, Bool.not_eq_true,
    Bool.or_eq_false_iff]

/-- **Equality by codes is equality of values.** -/
theorem equals_iff {x y : Binary64} :
    x.equals y = true ↔ x.compare? y = some .eq := by
  unfold equals isZero
  rw [compare?_eq_some_iff, Int.compare_eq_eq, scaled_eq_iff]
  simp only [Bool.and_eq_true, Bool.not_eq_true', Bool.or_eq_true, beq_iff_eq]

/-- Turning a comparison around turns its answer around. -/
theorem compare?_swap (x y : Binary64) :
    y.compare? x = (x.compare? y).map Ordering.swap := by
  unfold compare?
  rw [Bool.or_comm]
  split
  · rfl
  · rw [Option.map_some, Int.compare_swap]

/-- Only zero is rounded to zero. -/
theorem eq_zero_of_scaled_ofInt {v : Int} (h : (ofInt v).scaled = 0) :
    v = 0 := by
  have hone : (0 : Int) < one := Int.natCast_pos.2 one_pos
  rcases Int.lt_trichotomy v 0 with hneg | hzero | hpos
  · have hle := scaled_ofInt_mono (show v ≤ -1 by omega)
    rw [scaled_ofInt_of_natAbs_le (v := -1) (by decide)] at hle
    omega
  · exact hzero
  · have hle := scaled_ofInt_mono (show 1 ≤ v by omega)
    rw [scaled_ofInt_of_natAbs_le (v := 1) (by decide)] at hle
    omega

/-- **Integers that are rounded to one value are rounded to one double**, zero
included. -/
theorem ofInt_eq_iff {u v : Int} :
    ofInt u = ofInt v ↔ (ofInt u).scaled = (ofInt v).scaled := by
  constructor
  · exact congrArg scaled
  · intro h
    by_cases hzero : (ofInt v).scaled = 0
    · rw [eq_zero_of_scaled_ofInt hzero, eq_zero_of_scaled_ofInt (h.trans hzero)]
    · rcases scaled_eq_iff.1 h with heq | ⟨-, hcode⟩
      · exact heq
      · refine absurd ?_ hzero
        rw [← Int.natAbs_eq_zero, natAbs_scaled, magnitude_eq, hcode]
        rfl

/-- **Rounding tells integers apart if one of them is below `2^53`** in
magnitude. -/
theorem scaled_ofInt_lt {u v : Int} (h : u < v)
    (hsmall : u.natAbs < 2 ^ 53 ∨ v.natAbs < 2 ^ 53) :
    (ofInt u).scaled < (ofInt v).scaled := by
  have hone : (0 : Int) < one := Int.natCast_pos.2 one_pos
  rcases hsmall with hu | hv
  · have hnext := scaled_ofInt_mono (show u + 1 ≤ v by omega)
    rw [scaled_ofInt_of_natAbs_le (v := u + 1) (by omega), Int.add_mul,
      Int.one_mul] at hnext
    rw [scaled_ofInt_of_natAbs_le (Nat.le_of_lt hu)]
    omega
  · have hprevious := scaled_ofInt_mono (show u ≤ v - 1 by omega)
    rw [scaled_ofInt_of_natAbs_le (v := v - 1) (by omega), Int.sub_mul,
      Int.one_mul] at hprevious
    rw [scaled_ofInt_of_natAbs_le (Nat.le_of_lt hv)]
    omega

end Binary64

namespace Number

variable {a b c : Number}

/-! ## What a comparison says -/

/-- **Equality of numbers by their kinds**: two integers are equal if they are
the same, and otherwise the doubles are compared. -/
def equals : Number → Number → Bool
  | integer u, integer v => u == v
  | a, b => a.toBinary64.equals b.toBinary64

/-- The value as it is after rounding, in the units of doubles. -/
def rounded (a : Number) : Int := a.toBinary64.scaled

/-- A number is one after rounding. -/
@[simp] theorem isNaN_toBinary64 (a : Number) : a.toBinary64.isNaN = a.isNaN := by
  cases a with
  | integer v => exact Binary64.isNaN_ofInt _
  | real x => rfl

/-- **Two rules of comparison**: numbers are integers, or compared as doubles. -/
theorem kinds (a b : Number) :
    (∃ u v, a = integer u ∧ b = integer v)
      ∨ (∀ u v, a = integer u → b ≠ integer v)
        ∧ a.compare? b = a.toBinary64.compare? b.toBinary64
        ∧ a.equals b = a.toBinary64.equals b.toBinary64 := by
  cases a with
  | integer u =>
    cases b with
    | integer v => exact .inl ⟨u, v, rfl, rfl⟩
    | real y => exact .inr ⟨fun _ _ _ => nofun, rfl, rfl⟩
  | real x => exact .inr ⟨fun _ _ => nofun, rfl, rfl⟩

/-- **When a number is below another**: when it is after rounding, or when both
are integers and it is before. -/
theorem below_iff :
    a.below b = true
      ↔ (a.isNaN = false ∧ b.isNaN = false)
        ∧ (a.rounded < b.rounded
          ∨ ∃ u v, a = integer u ∧ b = integer v ∧ u.toInt < v.toInt) := by
  unfold below
  rw [beq_iff_eq]
  rcases kinds a b with ⟨u, v, rfl, rfl⟩ | ⟨hkinds, hcompare, -⟩
  · have hrounded : (integer u).rounded < (integer v).rounded
        → u.toInt < v.toInt := fun h =>
      Int.not_le.1 fun hle => Int.not_lt.2 (Binary64.scaled_ofInt_mono hle) h
    simp only [compare?, Option.some_inj, Int.compare_eq_lt, isNaN, and_self,
      true_and]
    constructor
    · exact fun h => .inr ⟨u, v, rfl, rfl, h⟩
    · rintro (h | ⟨_, _, ⟨⟩, ⟨⟩, h⟩)
      · exact hrounded h
      · exact h
  · rw [hcompare, Binary64.compare?_eq_some_iff, isNaN_toBinary64,
      isNaN_toBinary64, Int.compare_eq_lt]
    refine and_congr_right fun _ => ⟨.inl, ?_⟩
    rintro (h | ⟨u, v, rfl, rfl, -⟩)
    · exact h
    · exact absurd rfl (hkinds u v rfl)

/-- **When numbers are equal**: when they are after rounding, unless they are
different integers. -/
theorem sameAs_iff :
    a.sameAs b = true
      ↔ (a.isNaN = false ∧ b.isNaN = false) ∧ a.rounded = b.rounded
        ∧ ∀ u v, a = integer u → b = integer v → u = v := by
  unfold sameAs
  rw [beq_iff_eq]
  rcases kinds a b with ⟨u, v, rfl, rfl⟩ | ⟨hkinds, hcompare, -⟩
  · simp only [compare?, Option.some_inj, Int.compare_eq_eq, Int64.toInt_inj,
      isNaN, and_self, true_and, integer.injEq]
    constructor
    · rintro rfl
      exact ⟨rfl, fun _ _ h h' => h.symm.trans h'⟩
    · exact fun h => h.2 u v rfl rfl
  · rw [hcompare, Binary64.compare?_eq_some_iff, isNaN_toBinary64,
      isNaN_toBinary64, Int.compare_eq_eq]
    refine and_congr_right fun _ => ⟨fun h => ⟨h, ?_⟩, And.left⟩
    exact fun u v hu hv => absurd hv (hkinds u v hu)

/-- **A number equals itself**, and what is no number does not. -/
theorem sameAs_self_iff : a.sameAs a = true ↔ a.isNaN = false := by
  rw [sameAs_iff, and_self_iff]
  refine and_iff_left ⟨rfl, ?_⟩
  rintro u v rfl hv
  exact integer.inj hv

/-- Numbers can be compared unless one of them is none. -/
theorem compare?_isSome_iff :
    (a.compare? b).isSome = true ↔ a.isNaN = false ∧ b.isNaN = false := by
  rcases kinds a b with ⟨u, v, rfl, rfl⟩ | ⟨-, hcompare, -⟩
  · exact iff_of_true rfl ⟨rfl, rfl⟩
  · rw [hcompare, Option.isSome_iff_exists]
    simp only [Binary64.compare?_eq_some_iff, isNaN_toBinary64]
    exact ⟨fun ⟨_, h⟩ => h.1, fun h => ⟨_, h, rfl⟩⟩

/-! ## Laws that hold -/

/-- **Equality by kinds is the equality that the order has.** -/
theorem equals_iff : a.equals b = true ↔ a.compare? b = some .eq := by
  rcases kinds a b with ⟨u, v, rfl, rfl⟩ | ⟨-, hcompare, hequals⟩
  · simp only [equals, compare?, beq_iff_eq, Option.some_inj, Int.compare_eq_eq,
      Int64.toInt_inj]
  · rw [hcompare, hequals]
    exact Binary64.equals_iff

/-- **Turning a comparison around turns its answer around.** -/
theorem compare?_swap (a b : Number) :
    b.compare? a = (a.compare? b).map Ordering.swap := by
  rcases kinds a b with ⟨u, v, rfl, rfl⟩ | ⟨hkinds, hcompare, -⟩
  · simp only [compare?, Option.map_some, Int.compare_swap]
  · rcases kinds b a with ⟨v, u, rfl, rfl⟩ | ⟨-, hcompare', -⟩
    · exact absurd rfl (hkinds u v rfl)
    · rw [hcompare, hcompare', Binary64.compare?_swap]

/-- **Equality is symmetric.** -/
theorem sameAs_comm (a b : Number) : a.sameAs b = b.sameAs a := by
  unfold sameAs
  rw [compare?_swap b a]
  rcases b.compare? a with _ | _ | _ | _ <;> rfl

/-- **What is below another has the other above it.** -/
theorem below_eq_above (a b : Number) : a.below b = b.above a := by
  unfold below above
  rw [compare?_swap b a]
  rcases b.compare? a with _ | _ | _ | _ <;> rfl

/-- What is below another is not above it after rounding. -/
theorem rounded_le_of_below (h : a.below b = true) : a.rounded ≤ b.rounded := by
  rcases (below_iff.1 h).2 with hlt | ⟨u, v, rfl, rfl, hlt⟩
  · exact Int.le_of_lt hlt
  · exact Binary64.scaled_ofInt_mono (Int.le_of_lt hlt)

/-- **Being below is transitive.** If rounding leaves no difference anywhere, all
three are integers. -/
theorem below_trans (hab : a.below b = true) (hbc : b.below c = true) :
    a.below c = true := by
  have hle := rounded_le_of_below hab
  have hle' := rounded_le_of_below hbc
  obtain ⟨⟨ha, -⟩, hab⟩ := below_iff.1 hab
  obtain ⟨⟨-, hc⟩, hbc⟩ := below_iff.1 hbc
  refine below_iff.2 ⟨⟨ha, hc⟩, ?_⟩
  rcases hab with hlt | ⟨u, v, rfl, rfl, hlt⟩
  · exact .inl (by omega)
  · rcases hbc with hlt' | ⟨v', w, hv, rfl, hlt'⟩
    · exact .inl (by omega)
    · obtain rfl := integer.inj hv
      exact .inr ⟨u, w, rfl, rfl, Int.lt_trans hlt hlt'⟩

/-! ## Merged integers -/

/-- **Integers that doubles do not tell apart.** -/
def Merged (a b : Number) : Prop :=
  ∃ u v : Int64, a = integer u ∧ b = integer v ∧ u ≠ v
    ∧ Binary64.ofInt u.toInt = Binary64.ofInt v.toInt

/-- Merged integers are not equal. -/
theorem Merged.not_sameAs (h : a.Merged b) : ¬ a.sameAs b = true := by
  obtain ⟨u, v, rfl, rfl, hne, -⟩ := h
  exact fun hsame => hne ((sameAs_iff.1 hsame).2.2 u v rfl rfl)

/-- Merged integers are far from zero. -/
theorem Merged.natAbs_le {u v : Int64} (h : (integer u).Merged (integer v)) :
    2 ^ 53 ≤ u.toInt.natAbs ∧ 2 ^ 53 ≤ v.toInt.natAbs := by
  obtain ⟨_, _, ⟨⟩, ⟨⟩, hne, heq⟩ := h
  have hscaled := congrArg Binary64.scaled heq
  have hlarge : ¬ (u.toInt.natAbs < 2 ^ 53 ∨ v.toInt.natAbs < 2 ^ 53) := by
    intro hsmall
    rcases Int.lt_or_gt_of_ne (mt Int64.toInt_inj.1 hne) with hlt | hlt
    · exact Int.ne_of_lt (Binary64.scaled_ofInt_lt hlt hsmall) hscaled
    · exact Int.ne_of_gt (Binary64.scaled_ofInt_lt hlt hsmall.symm) hscaled
  omega

/-- **Numbers that are the same after rounding are equal unless they are
merged.** -/
theorem sameAs_iff_not_merged (ha : a.isNaN = false) (hc : c.isNaN = false)
    (h : a.rounded = c.rounded) : a.sameAs c = true ↔ ¬ a.Merged c := by
  refine ⟨fun hsame hmerged => hmerged.not_sameAs hsame, fun hnot => ?_⟩
  refine sameAs_iff.2 ⟨⟨ha, hc⟩, h, ?_⟩
  rintro u v rfl rfl
  exact Classical.not_not.1 fun hne =>
    hnot ⟨u, v, rfl, rfl, hne, Binary64.ofInt_eq_iff.2 h⟩

/-- **Equality is transitive unless it comes to merged integers.** -/
theorem sameAs_trans_iff (hab : a.sameAs b = true) (hbc : b.sameAs c = true) :
    a.sameAs c = true ↔ ¬ a.Merged c := by
  obtain ⟨⟨ha, -⟩, hab, -⟩ := sameAs_iff.1 hab
  obtain ⟨⟨-, hc⟩, hbc, -⟩ := sameAs_iff.1 hbc
  exact sameAs_iff_not_merged ha hc (hab.trans hbc)

/-- **What is equal to the smaller of two numbers is smaller as well**, unless it
is a double and the two are merged; then it is equal to both. -/
theorem below_of_sameAs_iff (hab : a.sameAs b = true) (hbc : b.below c = true) :
    (a.below c = true ↔ ¬ (a.isInteger = false ∧ b.Merged c))
      ∧ (a.isInteger = false ∧ b.Merged c → a.sameAs c = true) := by
  have hle := rounded_le_of_below hbc
  obtain ⟨⟨ha, -⟩, hab, hint⟩ := sameAs_iff.1 hab
  obtain ⟨⟨-, hc⟩, hbc⟩ := below_iff.1 hbc
  have hmerged : a.isInteger = false ∧ b.Merged c →
      a.rounded = c.rounded ∧ ∀ u v, a = integer u → c = integer v → u = v := by
    rintro ⟨hkind, u, v, rfl, rfl, -, heq⟩
    refine ⟨hab.trans (congrArg Binary64.scaled heq), ?_⟩
    rintro w _ rfl -
    exact absurd hkind nofun
  refine ⟨⟨fun hbelow hexc => ?_, fun hnot => ?_⟩,
    fun hexc => sameAs_iff.2 ⟨⟨ha, hc⟩, hmerged hexc⟩⟩
  · rcases (below_iff.1 hbelow).2 with hlt | ⟨u, v, rfl, -, -⟩
    · exact Int.ne_of_lt hlt (hmerged hexc).1
    · exact absurd hexc.1 nofun
  · refine below_iff.2 ⟨⟨ha, hc⟩, ?_⟩
    rcases Int.lt_or_eq_of_le hle with hlt | heq
    · exact .inl (hab ▸ hlt)
    · -- rounding leaves no difference, so the two are integers
      rcases hbc with hlt | ⟨v, w, rfl, rfl, hlt⟩
      · exact absurd heq (Int.ne_of_lt hlt)
      · cases a with
        | integer u =>
          obtain rfl := hint u v rfl rfl
          exact .inr ⟨u, w, rfl, rfl, hlt⟩
        | real x =>
          refine absurd ⟨rfl, v, w, rfl, rfl, ?_, Binary64.ofInt_eq_iff.2 heq⟩ hnot
          rintro rfl
          exact Int.lt_irrefl _ hlt

end Number

end CanCatalog
