import CanCatalog.Proofs.Binary64.Decimals
import CanCatalog.Proofs.Number.Literal
import CanCatalog.Proofs.Text.Word

/-!
# The grammar of literals

A literal is an integer or a decimal, with white space around it that does not
count. An integer is digits after an optional sign. A decimal may have a point
before, among or behind its digits, or an exponent behind them with a sign of
its own, or both, or neither: every literal of an integer has the form of a
decimal as well, but it is read as an integer.

The forms are all that is accepted, and all of them are, with one exception. A
decimal is refused if its value is `2^1024 - 2^970` or more, for then no finite
double is nearest; an integer is never refused. That nothing else slips through
is not obvious from the way a literal is read. It is looked at for its characters
only, whatever their order is, and what passes is left to a reader of doubles, which
takes more than decimals. The two fit together. The reader sees to the order, so that
there is neither a second sign nor a second point; and no word that it takes is made
of the characters that pass (`Numeral.double?_of_isDecimalChar`).
-/

namespace CanCatalog

namespace Numeral

/-! ## Decimals as they are written -/

/-- **Digits and at most one point**, given the digits as one number and how many
of them are behind the point. -/
inductive Significand : List Char → Nat → Nat → Prop where
  /-- There is no point. -/
  | whole {digits : List Char} {n : Nat} (isDigits : Digits digits n) :
    Significand digits n 0
  /-- There is a point, and a digit before it or behind it. -/
  | point {whole fraction : List Char} {n : Nat}
    (isDigits : Digits (whole ++ fraction) n) :
    Significand (whole ++ '.' :: fraction) n fraction.length

/-- **A power of ten behind the digits**, which may be missing. -/
inductive Exponent : List Char → Int → Prop where
  /-- Nothing is behind the digits. -/
  | absent : Exponent [] 0
  /-- There is a mark, and then an integer. -/
  | marked {mark : Char} {sign digits : List Char} {negative : Bool} {n : Nat}
    (isMark : mark = 'e' ∨ mark = 'E') (isSign : Sign negative sign)
    (isDigits : Digits digits n) :
    Exponent (mark :: (sign ++ digits)) (if negative then -(n : Int) else n)

/-- **A decimal without its sign**, given its digits and the power of ten that
scales them. -/
def DecimalForm (text : List Char) (digits : Nat) (exponent : Int) : Prop :=
  ∃ front back places power, Significand front digits places
    ∧ Exponent back power ∧ text = front ++ back ∧ exponent = power - places

/-- **A literal of a decimal**, given its sign, its digits and the power of ten
that scales them: white space may be around it. -/
def IsDecimal (token : List Char) (negative : Bool) (digits : Nat)
    (exponent : Int) : Prop :=
  ∃ sign body, Sign negative sign ∧ DecimalForm body digits exponent
    ∧ Text.IsTrimmed token (sign ++ body)

/-! ## What is split off -/

/-- **Digits are split off what begins otherwise.** -/
theorem splitDigits_append {digits rest : List Char}
    (hdigits : ∀ c ∈ digits, c.isDigit = true)
    (hrest : ∀ c, rest.head? = some c → c.isDigit = false) :
    splitDigits (digits ++ rest) = (digits, rest) := by
  obtain ⟨htake, hdrop⟩ : rest.takeWhile Char.isDigit = []
      ∧ rest.dropWhile Char.isDigit = rest := by
    cases rest with
    | nil => exact ⟨rfl, rfl⟩
    | cons c rest =>
      have hc := Bool.eq_false_iff.1 (hrest c rfl)
      exact ⟨List.takeWhile_cons_of_neg hc, List.dropWhile_cons_of_neg hc⟩
  unfold splitDigits
  rw [List.takeWhile_append_of_pos hdigits, List.dropWhile_append_of_pos hdigits,
    htake, hdrop, List.append_nil]

/-- What is split off as digits are digits, and what is left begins
otherwise. -/
theorem splitDigits_spec (text : List Char) :
    ∃ digits rest, splitDigits text = (digits, rest) ∧ text = digits ++ rest
      ∧ (∀ c ∈ digits, c.isDigit = true)
      ∧ ∀ c, rest.head? = some c → c.isDigit = false := by
  refine ⟨_, _, rfl, List.takeWhile_append_dropWhile.symm,
    List.all_eq_true.1 List.all_takeWhile, fun c hc => ?_⟩
  have hnot := List.head?_dropWhile_not Char.isDigit text
  rw [hc] at hnot
  exact hnot

/-- Behind its mark an exponent is an integer. -/
theorem exponent?_cons (mark : Char) (rest : List Char) :
    exponent? (mark :: rest)
      = if mark = 'e' ∨ mark = 'E' then
          (digits? (splitSign rest).2).map fun n : Nat =>
            if (splitSign rest).1 then -(n : Int) else n
        else none := by
  simp only [exponent?]
  split
  · cases digits? (splitSign rest).2 <;> rfl
  · rfl

/-- **Exponents are recognized.** -/
theorem exponent?_eq_some_iff {text : List Char} {power : Int} :
    exponent? text = some power ↔ Exponent text power := by
  constructor
  · intro h
    cases text with
    | nil =>
      obtain rfl := Option.some.inj h
      exact .absent
    | cons mark rest =>
      obtain ⟨⟨negative, body⟩, hsplit⟩ :
          ∃ parts, splitSign rest = parts := ⟨_, rfl⟩
      rw [exponent?_cons, hsplit] at h
      obtain ⟨hmark, h⟩ := Option.ite_none_right_eq_some.1 h
      obtain ⟨n, hn, rfl⟩ := Option.map_eq_some_iff.1 h
      obtain ⟨sign, hsign, rfl⟩ := exists_sign_of_splitSign hsplit
      exact .marked hmark hsign (digits?_eq_some_iff.1 hn)
  · intro h
    cases h with
    | absent => rfl
    | marked isMark isSign isDigits =>
      rw [exponent?_cons, if_pos isMark, isSign.splitSign_append isDigits,
        digits?_eq_some_iff.2 isDigits]
      rfl

/-- An exponent begins with its mark. -/
theorem Exponent.head? {text : List Char} {power : Int}
    (h : Exponent text power) :
    ∀ c, text.head? = some c → c = 'e' ∨ c = 'E' := by
  intro c hc
  cases h with
  | absent => exact absurd hc (by simp)
  | marked isMark _ _ => exact Option.some.inj hc ▸ isMark

/-- How a decimal with a point is read. -/
theorem decimal?_of_point {text whole rest fraction back : List Char}
    (hwhole : splitDigits text = (whole, '.' :: rest))
    (hfraction : splitDigits rest = (fraction, back)) :
    decimal? text
      = if whole ++ fraction = [] then none
        else (exponent? back).map fun power : Int =>
          (Nat.ofDigitChars 10 (whole ++ fraction) 0,
            power - fraction.length) := by
  simp only [decimal?, hwhole, hfraction, Bool.and_eq_true,
    List.isEmpty_iff, List.append_eq_nil_iff]

/-- How a decimal without a point is read. -/
theorem decimal?_of_whole {text whole back : List Char}
    (hwhole : splitDigits text = (whole, back))
    (hback : back.head? ≠ some '.') :
    decimal? text
      = if whole = [] then none
        else (exponent? back).map fun power : Int =>
          (Nat.ofDigitChars 10 whole 0, power) := by
  simp only [decimal?, hwhole]
  split
  · exact absurd rfl hback
  · simp

/-- **Decimals are recognized.** -/
theorem decimal?_eq_some_iff {text : List Char} {digits : Nat}
    {exponent : Int} :
    decimal? text = some (digits, exponent)
      ↔ DecimalForm text digits exponent := by
  constructor
  · intro h
    obtain ⟨whole, rest, hwhole, rfl, hdigits, hnot⟩ := splitDigits_spec text
    -- behind the first digits there is a point, or the significand ends
    by_cases hpoint : rest.head? = some '.'
    · obtain ⟨rest, rfl⟩ := List.head?_eq_some_iff.1 hpoint
      obtain ⟨fraction, back, hfraction, rfl, hdigits', -⟩ :=
        splitDigits_spec rest
      rw [decimal?_of_point hwhole hfraction] at h
      obtain ⟨hne, h⟩ := Option.ite_none_left_eq_some.1 h
      obtain ⟨power, hpower, h⟩ := Option.map_eq_some_iff.1 h
      obtain ⟨rfl, rfl⟩ := Prod.mk.inj h
      exact ⟨whole ++ '.' :: fraction, back, fraction.length, power,
        .point ⟨hne, List.forall_mem_append.2 ⟨hdigits, hdigits'⟩, rfl⟩,
        exponent?_eq_some_iff.1 hpower, by simp, rfl⟩
    · rw [decimal?_of_whole hwhole hpoint] at h
      obtain ⟨hne, h⟩ := Option.ite_none_left_eq_some.1 h
      obtain ⟨power, hpower, h⟩ := Option.map_eq_some_iff.1 h
      obtain ⟨rfl, rfl⟩ := Prod.mk.inj h
      exact ⟨whole, rest, 0, power, .whole ⟨hne, hdigits, rfl⟩,
        exponent?_eq_some_iff.1 hpower, rfl, by simp⟩
  · rintro ⟨front, back, places, power, hfront, hback, rfl, rfl⟩
    have hnot : ∀ c, back.head? = some c → c.isDigit = false := by
      intro c hc
      rcases hback.head? c hc with rfl | rfl <;> rfl
    cases hfront with
    | whole isDigits =>
      have hpoint : back.head? ≠ some '.' := fun hc =>
        absurd (hback.head? '.' hc) (by decide)
      rw [decimal?_of_whole (splitDigits_append isDigits.isDigit hnot) hpoint,
        if_neg isDigits.ne_nil, exponent?_eq_some_iff.2 hback,
        isDigits.value_eq]
      simp
    | @point whole fraction n isDigits =>
      obtain ⟨hwhole, hfraction⟩ := List.forall_mem_append.1 isDigits.isDigit
      rw [List.append_assoc, List.cons_append,
        decimal?_of_point
          (splitDigits_append hwhole fun c hc => by
            obtain rfl := Option.some.inj hc
            rfl)
          (splitDigits_append hfraction hnot),
        if_neg isDigits.ne_nil, exponent?_eq_some_iff.2 hback,
        isDigits.value_eq]
      rfl

/-- A decimal begins with no sign of its own. -/
theorem DecimalForm.head?_ne {text : List Char} {digits : Nat} {exponent : Int}
    (h : DecimalForm text digits exponent) {c : Char}
    (hdigit : c.isDigit = false) (hpoint : c ≠ '.') : text.head? ≠ some c := by
  obtain ⟨front, back, places, power, hfront, -, rfl, -⟩ := h
  cases hfront with
  | whole isDigits =>
    obtain ⟨d, rest, rfl⟩ := List.exists_cons_of_ne_nil isDigits.ne_nil
    exact isDigits.head?_ne hdigit
  | @point whole fraction n isDigits =>
    cases whole with
    | nil => exact fun hc => hpoint (Option.some.inj hc).symm
    | cons d whole => exact isDigits.head?_ne hdigit

/-- **A decimal with a sign is read as the double nearest to it.** -/
theorem double?_append {negative : Bool} {sign body : List Char} {digits : Nat}
    {exponent : Int} (hsign : Sign negative sign)
    (hbody : DecimalForm body digits exponent) :
    double? (sign ++ body)
      = some (Binary64.ofDecimal negative digits exponent) := by
  unfold double?
  rw [hsign.splitSign_append_of_head? (hbody.head?_ne (by decide) (by decide))
    (hbody.head?_ne (by decide) (by decide))]
  dsimp only
  rw [decimal?_eq_some_iff.2 hbody]

/-- **How literals of decimals are recognized.** -/
theorem isDecimal_iff {token : List Char} {negative : Bool} {digits : Nat}
    {exponent : Int} :
    IsDecimal token negative digits exponent
      ↔ ∃ body, splitSign (Text.trim token) = (negative, body)
        ∧ decimal? body = some (digits, exponent) := by
  constructor
  · rintro ⟨sign, body, hsign, hbody, htrim⟩
    rw [htrim.trim_eq]
    exact ⟨body, hsign.splitSign_append_of_head?
      (hbody.head?_ne (by decide) (by decide))
      (hbody.head?_ne (by decide) (by decide)), decimal?_eq_some_iff.2 hbody⟩
  · rintro ⟨body, hsplit, hbody⟩
    obtain ⟨sign, hsign, htrim⟩ := exists_sign_of_splitSign hsplit
    exact ⟨sign, body, hsign, decimal?_eq_some_iff.1 hbody,
      Text.trim_eq_iff.1 htrim⟩

/-! ## What is looked at before -/

/-- A digit is a character of decimals. -/
theorem isDecimalChar_of_isDigit {c : Char} (h : c.isDigit = true) :
    isDecimalChar c = true := by
  simp only [isDecimalChar, h, Bool.true_or]

/-- **A decimal has a digit.** -/
theorem DecimalForm.any_isDigit {text : List Char} {digits : Nat}
    {exponent : Int} (h : DecimalForm text digits exponent) :
    text.any Char.isDigit = true := by
  obtain ⟨front, back, places, power, hfront, -, rfl, -⟩ := h
  rw [List.any_append, Bool.or_eq_true]
  refine .inl (List.any_eq_true.2 ?_)
  cases hfront with
  | whole isDigits =>
    obtain ⟨d, hd⟩ := List.exists_mem_of_ne_nil _ isDigits.ne_nil
    exact ⟨d, hd, isDigits.isDigit d hd⟩
  | @point whole fraction n isDigits =>
    obtain ⟨d, hd⟩ := List.exists_mem_of_ne_nil _ isDigits.ne_nil
    refine ⟨d, ?_, isDigits.isDigit d hd⟩
    rw [List.mem_append, List.mem_cons]
    exact (List.mem_append.1 hd).imp_right .inr

/-- **A decimal has no characters but those of decimals.** -/
theorem DecimalForm.all_isDecimalChar {text : List Char} {digits : Nat}
    {exponent : Int} (h : DecimalForm text digits exponent) :
    text.all isDecimalChar = true := by
  have hdigits : ∀ {l : List Char}, (∀ c ∈ l, c.isDigit = true) →
      ∀ c ∈ l, isDecimalChar c = true :=
    fun hl c hc => isDecimalChar_of_isDigit (hl c hc)
  obtain ⟨front, back, places, power, hfront, hback, rfl, -⟩ := h
  refine List.all_eq_true.2 (List.forall_mem_append.2 ⟨?_, ?_⟩)
  · cases hfront with
    | whole isDigits => exact hdigits isDigits.isDigit
    | @point whole fraction n isDigits =>
      obtain ⟨hwhole, hfraction⟩ := List.forall_mem_append.1 isDigits.isDigit
      exact List.forall_mem_append.2 ⟨hdigits hwhole,
        List.forall_mem_cons.2 ⟨rfl, hdigits hfraction⟩⟩
  · cases hback with
    | absent => exact nofun
    | @marked mark sign digits negative n isMark isSign isDigits =>
      have hmark : isDecimalChar mark = true := by
        rcases isMark with rfl | rfl
        · rfl
        · rfl
      have hsign : ∀ c ∈ sign, isDecimalChar c = true := by
        cases isSign with
        | absent => exact nofun
        | plus => exact List.forall_mem_singleton.2 rfl
        | minus => exact List.forall_mem_singleton.2 rfl
      exact List.forall_mem_cons.2 ⟨hmark,
        List.forall_mem_append.2 ⟨hsign, hdigits isDigits.isDigit⟩⟩

/-- **The words for doubles have a letter that decimals have not.** -/
theorem exists_mem_of_named? {negative : Bool} {word : List Char}
    {x : Binary64} (h : named? negative word = some x) :
    ∃ c ∈ word, c.toLower = 'n' := by
  have hmem : 'n' ∈ word.map Char.toLower := by
    unfold named? at h
    dsimp only at h
    split at h
    · next hinfinity =>
      rcases hinfinity with heq | heq
      · rw [heq]
        decide
      · rw [heq]
        decide
    · obtain ⟨heq, -⟩ := Option.ite_none_right_eq_some.1 h
      rw [heq]
      decide
  exact List.mem_map.1 hmem

/-- It is none of the characters of decimals, in either case. -/
theorem toLower_ne_of_isDecimalChar {c : Char} (h : isDecimalChar c = true) :
    c.toLower ≠ 'n' := by
  simp only [isDecimalChar, Bool.or_eq_true, beq_iff_eq] at h
  rcases h with ((((h | rfl) | rfl) | rfl) | rfl) | rfl
  · -- a digit is no letter, and so it has no other case
    have hlower : c.toLower = c := by
      simp only [Char.isDigit, Bool.and_eq_true, decide_eq_true_eq] at h
      refine dif_neg fun hupper => ?_
      exact absurd (UInt32.le_trans hupper.1 h.2) (by decide)
    rw [hlower]
    rintro rfl
    exact absurd h (by decide)
  all_goals decide

/-- **No word for a double gets through.** What has the characters of decimals is
read as a double only if it is a decimal. -/
theorem double?_of_isDecimalChar {text body : List Char} {negative : Bool}
    (hsplit : splitSign text = (negative, body))
    (h : body.all isDecimalChar = true) :
    double? text
      = (decimal? body).map fun d => Binary64.ofDecimal negative d.1 d.2 := by
  have hnamed : named? negative body = none := by
    refine Option.eq_none_iff_forall_ne_some.2 fun x hx => ?_
    obtain ⟨c, hc, hlower⟩ := exists_mem_of_named? hx
    exact toLower_ne_of_isDecimalChar (List.all_eq_true.1 h c hc) hlower
  unfold double?
  rw [hsplit]
  dsimp only
  cases decimal? body with
  | none => exact hnamed
  | some d => rfl

end Numeral

open Numeral (IsInteger IsDecimal isInteger_iff isDecimal_iff)

namespace Number

/-- **What is no integer is read as a decimal**, if its value is not too
large. -/
theorem ofLiteral?_eq_some_iff_isDecimal {token : List Char}
    {x : Number} (hnot : ∀ negative n, ¬ IsInteger token negative n) :
    ofLiteral? token = some x
      ↔ ∃ negative digits exponent, IsDecimal token negative digits exponent
        ∧ Binary64.decimalValue digits exponent < 2 ^ 1024 - 2 ^ 970
        ∧ x = .real (Binary64.ofDecimal negative digits exponent) := by
  obtain ⟨⟨negative, body⟩, hsplit⟩ :
      ∃ parts, Numeral.splitSign (Text.trim token) = parts := ⟨_, rfl⟩
  have hdigits : Numeral.digits? body = none :=
    Option.eq_none_iff_forall_ne_some.2 fun n hn =>
      hnot negative n (isInteger_iff.2 ⟨body, hsplit, hn⟩)
  rw [ofLiteral?_of_not_digits hsplit hdigits, Option.ite_none_right_eq_some,
    Bool.and_eq_true]
  constructor
  · rintro ⟨⟨-, hchars⟩, h⟩
    rw [Numeral.double?_of_isDecimalChar hsplit hchars] at h
    obtain ⟨v, hv, rfl⟩ := Option.map_eq_some_iff.1 h
    obtain ⟨hdouble, hfinite⟩ := Option.filter_eq_some_iff.1 hv
    obtain ⟨⟨digits, exponent⟩, hbody, rfl⟩ := Option.map_eq_some_iff.1 hdouble
    exact ⟨negative, digits, exponent,
      isDecimal_iff.2 ⟨body, hsplit, hbody⟩,
      Binary64.isFinite_ofDecimal_iff.1 hfinite, rfl⟩
  · rintro ⟨negative', digits, exponent, hdecimal, hlt, rfl⟩
    obtain ⟨body', hsplit', hbody⟩ := isDecimal_iff.1 hdecimal
    obtain ⟨rfl, rfl⟩ := Prod.mk.inj (hsplit.symm.trans hsplit')
    have hform := Numeral.decimal?_eq_some_iff.1 hbody
    refine ⟨⟨hform.any_isDigit, hform.all_isDecimalChar⟩, ?_⟩
    rw [Numeral.double?_of_isDecimalChar hsplit hform.all_isDecimalChar, hbody,
      Option.map_some, Option.filter_some,
      if_pos (Binary64.isFinite_ofDecimal_iff.2 hlt)]
    rfl

/-- A literal of an integer is made of digits and signs, white space aside. -/
theorem isDigit_of_isInteger {token : List Char} {negative : Bool} {n : Nat}
    (h : IsInteger token negative n) {c : Char} (hc : c ∈ token)
    (hblank : Text.isBlank c = false) :
    c = '+' ∨ c = '-' ∨ c.isDigit = true := by
  obtain ⟨sign, digits, hsign, hdigits, htrim⟩ := h
  rcases List.mem_append.1 (htrim.mem hc hblank) with hmem | hmem
  · cases hsign with
    | absent => exact absurd hmem List.not_mem_nil
    | plus => exact .inl (List.mem_singleton.1 hmem)
    | minus => exact .inr (.inl (List.mem_singleton.1 hmem))
  · exact .inr (.inr (hdigits.isDigit c hmem))

/-- **Literals are read by their grammar.** Exactly the literals of integers and
those of decimals that are not too large are read, which means that the nearest
double is finite (`Binary64.isFinite_ofDecimal_iff`); the former alone can give
an integer, and with a point or an exponent a literal gives the double that is
nearest to it. -/
theorem literal_grammar (token : List Char) :
    ((ofLiteral? token).isSome = true
      ↔ (∃ negative n, IsInteger token negative n)
        ∨ ∃ negative digits exponent, IsDecimal token negative digits exponent
          ∧ Binary64.decimalValue digits exponent < 2 ^ 1024 - 2 ^ 970)
    ∧ (∀ v, ofLiteral? token = some (.integer v)
      → ∃ negative n, IsInteger token negative n)
    ∧ ∀ x, ofLiteral? token = some x
      → '.' ∈ token ∨ 'e' ∈ token ∨ 'E' ∈ token
      → ∃ negative digits exponent, IsDecimal token negative digits exponent
        ∧ x = .real (Binary64.ofDecimal negative digits exponent) := by
  -- the literal of an integer is one of a decimal too, but not read as one
  by_cases hint : ∃ negative n, IsInteger token negative n
  · obtain ⟨negative, n, hinteger⟩ := hint
    refine ⟨iff_of_true ?_ (.inl ⟨negative, n, hinteger⟩),
      fun _ _ => ⟨negative, n, hinteger⟩, fun x _ hmark => ?_⟩
    · rw [ofLiteral?_of_isInteger hinteger]
      rfl
    · rcases hmark with hmem | hmem | hmem
      all_goals
        exact absurd (isDigit_of_isInteger hinteger hmem (by decide))
          (by decide)
  · have hnot : ∀ negative n, ¬ IsInteger token negative n :=
      fun negative n h => hint ⟨negative, n, h⟩
    refine ⟨?_, fun v hv => ?_, fun x hx _ => ?_⟩
    · rw [Option.isSome_iff_exists]
      constructor
      · rintro ⟨x, hx⟩
        obtain ⟨negative, digits, exponent, hdecimal, hlt, -⟩ :=
          (ofLiteral?_eq_some_iff_isDecimal hnot).1 hx
        exact .inr ⟨negative, digits, exponent, hdecimal, hlt⟩
      · rintro (h | ⟨negative, digits, exponent, hdecimal, hlt⟩)
        · exact absurd h hint
        · exact ⟨_, (ofLiteral?_eq_some_iff_isDecimal hnot).2
            ⟨negative, digits, exponent, hdecimal, hlt, rfl⟩⟩
    · obtain ⟨_, _, _, -, -, hreal⟩ :=
        (ofLiteral?_eq_some_iff_isDecimal hnot).1 hv
      exact absurd hreal (by simp)
    · obtain ⟨negative, digits, exponent, hdecimal, -, hreal⟩ :=
        (ofLiteral?_eq_some_iff_isDecimal hnot).1 hx
      exact ⟨negative, digits, exponent, hdecimal, hreal⟩

/-- What looks like a number and is none: a sign alone or twice, a point alone or
twice, a mark without an exponent, names, other notations, other digits, and
white space inside. -/
example : ∀ token ∈ ["", "+", "+-1", ".", "-.e1", "1.2.3", "1e", "1e+", "inf",
    "nan", "0x1F", "1 2", "1_000", "\u0661"],
    ofLiteral? token.toList = none := by
  decide

/-- White space around a literal, of any kind, does not count. -/
example : ofLiteral? "\t-5\u2003 ".toList = some (.integer (-5)) := by decide

end Number

end CanCatalog
