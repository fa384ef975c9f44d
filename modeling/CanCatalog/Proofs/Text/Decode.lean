import CanCatalog.Proofs.Text.Cut
import CanCatalog.Text.Utf8

/-!
# Decoding line by line

A stream is decoded one line at a time and a file all at once, and the two
should not be told apart. They are not, because a line feed is a byte of its
own in UTF-8: no character of several bytes contains a byte below `0x80`, so a
text is cut at the same places whether its bytes are cut or its characters
are.

The decoder takes characters off the front. What it takes is a `Form`: one
byte below `0x80`, or several bytes that are all above it and stand for a
character that is above it as well. Everything here is an induction along the
forms of a text (`decode_induction`), and nothing else about the arithmetic of
the encoding is used.
-/

namespace CanCatalog.Text

namespace Utf8

/-! ## The forms of characters -/

/-- **The bytes of a character**, as far as it matters where they may be
cut. -/
inductive Form : List UInt8 → Char → Prop where
  /-- A byte below `0x80` is the character of its number. -/
  | narrow {a : UInt8} (small : a.toNat < 0x80) :
    Form [a] (Char.ofNat a.toNat)
  /-- All other characters have bytes from `0x80` on only, and the decoder
  takes them off as a whole. -/
  | wide {bytes : List UInt8} {c : Char} (nonempty : bytes ≠ [])
    (large : ∀ b ∈ bytes, 0x80 ≤ b.toNat) (least : 0x80 ≤ c.toNat)
    (decode_append : ∀ rest,
      decode (bytes ++ rest) = (decode rest).map (c :: ·)) :
    Form bytes c

theorem toNat_ofNat_of_lt {n : Nat} (h : n < 0x80) :
    (Char.ofNat n).toNat = n := by
  have hvalid : n.isValidChar := .inl (by omega)
  exact congrArg Char.toNat (dif_pos hvalid)

theorem decode_nil : decode [] = some [] := by
  rw [decode]

theorem decode_cons_of_lt {a : UInt8} (h : a.toNat < 0x80) (rest : List UInt8) :
    decode (a :: rest) = (decode rest).map (Char.ofNat a.toNat :: ·) := by
  rw [decode.eq_def]
  simp only
  rw [if_pos h]

/-- A form is taken off whatever follows it. -/
theorem Form.decode_append {form : List UInt8} {c : Char} (h : Form form c)
    (rest : List UInt8) :
    decode (form ++ rest) = (decode rest).map (c :: ·) := by
  cases h with
  | narrow small => exact decode_cons_of_lt small rest
  | wide _ _ _ happend => exact happend rest

theorem Form.ne_nil {form : List UInt8} {c : Char} (h : Form form c) :
    form ≠ [] := by
  cases h with
  | narrow _ => exact List.cons_ne_nil _ _
  | wide nonempty _ _ _ => exact nonempty

/-- A byte below `0x80` is a form of its own. -/
theorem Form.eq_singleton {form : List UInt8} {c : Char} (h : Form form c)
    {b : UInt8} (hb : b ∈ form) (small : b.toNat < 0x80) :
    form = [b] ∧ c = Char.ofNat b.toNat := by
  cases h with
  | narrow _ =>
    rw [List.mem_singleton.1 hb]
    exact ⟨rfl, rfl⟩
  | wide _ large _ _ => exact absurd (large b hb) (Nat.not_le.2 small)

/-- A character below `0x80` has the form of its number. -/
theorem Form.eq_singleton_of_char {form : List UInt8} {c : Char}
    (h : Form form c) (small : c.toNat < 0x80) :
    form = [UInt8.ofNat c.toNat] := by
  cases h with
  | narrow hsmall =>
    rw [toNat_ofNat_of_lt hsmall, UInt8.ofNat_toNat]
  | wide _ _ least _ => exact absurd least (Nat.not_le.2 small)

/-- A number that is a character is at least the least one of its form. -/
theorem toNat_of_scalar? {least n : Nat} {c : Char}
    (h : scalar? least n = some c) : c.toNat = n ∧ least ≤ n := by
  obtain ⟨hn, hc⟩ := Option.dite_none_right_eq_some.1 h
  obtain rfl := Option.some.inj hc
  exact ⟨rfl, hn.1⟩

/-- What a continuation byte carries. -/
theorem continuation?_eq_some_iff {b : UInt8} {n : Nat} :
    continuation? b = some n ↔ b.toNat = 0x80 + n ∧ n < 64 := by
  unfold continuation?
  rw [Option.ite_none_right_eq_some, Option.some_inj]
  omega

theorem le_toNat_of_scalar? {least n : Nat} {c : Char}
    (h : scalar? least n = some c) : least ≤ c.toNat := by
  obtain ⟨hc, hn⟩ := toNat_of_scalar? h
  rw [hc]
  exact hn

theorem le_toNat_of_continuation? {b : UInt8} {n : Nat}
    (h : continuation? b = some n) : 0x80 ≤ b.toNat := by
  rw [(continuation?_eq_some_iff.1 h).1]
  exact Nat.le_add_right _ _

/-- The bytes and the character of a form of two bytes. -/
theorem of_two? {a b : UInt8} {c : Char} (h : two? a b = some c) :
    0x80 ≤ b.toNat ∧ 0x80 ≤ c.toNat := by
  obtain ⟨n, hb, hc⟩ := Option.bind_eq_some_iff.1 h
  exact ⟨le_toNat_of_continuation? hb, le_toNat_of_scalar? hc⟩

/-- The bytes and the character of a form of three bytes. -/
theorem of_three? {a b c : UInt8} {ch : Char} (h : three? a b c = some ch) :
    0x80 ≤ b.toNat ∧ 0x80 ≤ c.toNat ∧ 0x80 ≤ ch.toNat := by
  obtain ⟨n, hb, h⟩ := Option.bind_eq_some_iff.1 h
  obtain ⟨m, hc, h⟩ := Option.bind_eq_some_iff.1 h
  have hch := le_toNat_of_scalar? h
  exact ⟨le_toNat_of_continuation? hb, le_toNat_of_continuation? hc, by omega⟩

/-- The bytes and the character of a form of four bytes. -/
theorem of_four? {a b c d : UInt8} {ch : Char} (h : four? a b c d = some ch) :
    0x80 ≤ b.toNat ∧ 0x80 ≤ c.toNat ∧ 0x80 ≤ d.toNat ∧ 0x80 ≤ ch.toNat := by
  obtain ⟨n, hb, h⟩ := Option.bind_eq_some_iff.1 h
  obtain ⟨m, hc, h⟩ := Option.bind_eq_some_iff.1 h
  obtain ⟨k, hd, h⟩ := Option.bind_eq_some_iff.1 h
  have hch := le_toNat_of_scalar? h
  exact ⟨le_toNat_of_continuation? hb, le_toNat_of_continuation? hc,
    le_toNat_of_continuation? hd, by omega⟩

/-- **What can be decoded begins with a form**, and what stands behind it can
be decoded. -/
theorem exists_form {a : UInt8} {bytes : List UInt8} {text : List Char}
    (h : decode (a :: bytes) = some text) :
    ∃ form c rest front, a :: bytes = form ++ rest ∧ text = c :: front
      ∧ Form form c ∧ decode rest = some front := by
  rw [decode.eq_def] at h
  simp only at h
  -- the cases are those of the first byte; where it asks for more bytes than
  -- there are, nothing is decoded
  split at h
  · next small =>
    obtain ⟨front, hrest, rfl⟩ := Option.map_eq_some_iff.1 h
    exact ⟨[a], _, bytes, front, rfl, rfl, .narrow small, hrest⟩
  have ha : ∀ b ∈ [a], 0x80 ≤ b.toNat := by
    intro b hb
    rw [List.mem_singleton.1 hb]
    omega
  split at h
  · next h₁ h₂ =>
    split at h
    · next b rest =>
      obtain ⟨c, hc, h⟩ := Option.bind_eq_some_iff.1 h
      obtain ⟨front, hrest, rfl⟩ := Option.map_eq_some_iff.1 h
      have hb := of_two? hc
      refine ⟨[a, b], c, rest, front, rfl, rfl,
        .wide (by simp) ?_ hb.2 ?_, hrest⟩
      · simp only [List.forall_mem_cons]
        exact ⟨ha a (by simp), hb.1, by simp⟩
      · intro rest
        rw [List.cons_append, List.cons_append, List.nil_append, decode.eq_def]
        simp only [if_neg h₁, if_pos h₂, hc, Option.bind_some]
    · exact absurd h (by simp)
  split at h
  · next h₁ h₂ h₃ =>
    split at h
    · next b d rest =>
      obtain ⟨c, hc, h⟩ := Option.bind_eq_some_iff.1 h
      obtain ⟨front, hrest, rfl⟩ := Option.map_eq_some_iff.1 h
      have hb := of_three? hc
      refine ⟨[a, b, d], c, rest, front, rfl, rfl,
        .wide (by simp) ?_ hb.2.2 ?_, hrest⟩
      · simp only [List.forall_mem_cons]
        exact ⟨ha a (by simp), hb.1, hb.2.1, by simp⟩
      · intro rest
        rw [List.cons_append, List.cons_append, List.cons_append,
          List.nil_append, decode.eq_def]
        simp only [if_neg h₁, if_neg h₂, if_pos h₃, hc, Option.bind_some]
    · exact absurd h (by simp)
  split at h
  · next h₁ h₂ h₃ h₄ =>
    split at h
    · next b d e rest =>
      obtain ⟨c, hc, h⟩ := Option.bind_eq_some_iff.1 h
      obtain ⟨front, hrest, rfl⟩ := Option.map_eq_some_iff.1 h
      have hb := of_four? hc
      refine ⟨[a, b, d, e], c, rest, front, rfl, rfl,
        .wide (by simp) ?_ hb.2.2.2 ?_, hrest⟩
      · simp only [List.forall_mem_cons]
        exact ⟨ha a (by simp), hb.1, hb.2.1, hb.2.2.1, by simp⟩
      · intro rest
        rw [List.cons_append, List.cons_append, List.cons_append,
          List.cons_append, List.nil_append, decode.eq_def]
        simp only [if_neg h₁, if_neg h₂, if_neg h₃, if_pos h₄, hc,
          Option.bind_some]
    · exact absurd h (by simp)
  · exact absurd h (by simp)

/-- **Induction along the forms of a text.** -/
theorem decode_induction {motive : List UInt8 → List Char → Prop}
    (nil : motive [] [])
    (form : ∀ form c rest front, Form form c → decode rest = some front →
      motive rest front → motive (form ++ rest) (c :: front))
    {bytes : List UInt8} {text : List Char} (h : decode bytes = some text) :
    motive bytes text := by
  match bytes with
  | [] =>
    rw [decode_nil] at h
    obtain rfl := Option.some.inj h
    exact nil
  | a :: bytes =>
    obtain ⟨first, c, rest, front, hbytes, rfl, hform, hrest⟩ := exists_form h
    have hshorter : rest.length < (a :: bytes).length := by
      rw [hbytes, List.length_append]
      have := List.length_pos_iff.2 hform.ne_nil
      omega
    rw [hbytes]
    exact form first c rest front hform hrest
      (decode_induction nil form hrest)
termination_by bytes.length
decreasing_by exact hshorter

/-! ## Cutting at a byte below `0x80` -/

/-- What follows a text that can be decoded is decoded as it would be
alone. -/
theorem decode_append {front : List UInt8} {text : List Char}
    (h : decode front = some text) (back : List UInt8) :
    decode (front ++ back) = (decode back).map (text ++ ·) := by
  refine decode_induction
    (motive := fun front text =>
      decode (front ++ back) = (decode back).map (text ++ ·)) ?nil ?form h
  case nil => simp
  case form =>
    intro form c rest text hform _ ih
    rw [List.append_assoc, hform.decode_append, ih, Option.map_map]
    rfl

/-- What stands before a byte below `0x80` can be decoded if the whole can. -/
theorem isSome_decode_of_append_cons {bytes : List UInt8} {text : List Char}
    (h : decode bytes = some text) :
    ∀ (front : List UInt8) (b : UInt8) (back : List UInt8),
      b.toNat < 0x80 → bytes = front ++ b :: back →
        (decode front).isSome = true := by
  refine decode_induction
    (motive := fun bytes _ =>
      ∀ (front : List UInt8) (b : UInt8) (back : List UInt8),
        b.toNat < 0x80 → bytes = front ++ b :: back →
          (decode front).isSome = true) ?nil ?form h
  case nil =>
    intro front b back _ heq
    exact absurd heq (by simp)
  case form =>
    intro form c rest text hform hrest ih front b back small heq
    rcases List.append_eq_append_iff.1 heq with ⟨l, hl, hr⟩ | ⟨l, hl, hr⟩
    · -- the byte stands behind the first form
      rw [hl, hform.decode_append, Option.isSome_map]
      exact ih l b back small hr
    · cases l with
      | nil =>
        rw [List.append_nil] at hl
        rw [← hl, ← List.append_nil form, hform.decode_append, decode_nil]
        rfl
      | cons x l =>
        -- the byte belongs to the first form, which it therefore is
        obtain ⟨rfl, -⟩ := List.cons_eq_cons.1 (List.cons_append ▸ hr)
        have hmem : b ∈ form := hl ▸ List.mem_append_right _ List.mem_cons_self
        have hone := (hform.eq_singleton hmem small).1
        have hfront : front = [] := by
          have hlen := congrArg List.length (hone ▸ hl)
          simp only [List.length_append, List.length_cons, List.length_nil]
            at hlen
          exact List.length_eq_zero_iff.1 (by omega)
        rw [hfront, decode_nil]
        rfl

/-- **A text can be cut at a byte below `0x80`**: both sides are decoded on
their own, and the byte is a character between them. -/
theorem decode_append_cons {b : UInt8} (small : b.toNat < 0x80)
    (front back : List UInt8) :
    decode (front ++ b :: back)
      = (decode front).bind fun x =>
          (decode back).map fun y => x ++ Char.ofNat b.toNat :: y := by
  cases hfront : decode front with
  | some x =>
    rw [decode_append hfront, decode_cons_of_lt small, Option.map_map]
    rfl
  | none =>
    cases hall : decode (front ++ b :: back) with
    | none => rfl
    | some text =>
      have hsome := isSome_decode_of_append_cons hall front b back small rfl
      rw [hfront] at hsome
      exact absurd hsome (by simp)

/-- Only the empty text has no bytes. -/
theorem decode_eq_some_nil_iff {bytes : List UInt8} :
    decode bytes = some [] ↔ bytes = [] := by
  constructor
  · intro h
    cases bytes with
    | nil => rfl
    | cons a bytes =>
      obtain ⟨_, _, _, _, _, htext, _⟩ := exists_form h
      exact absurd htext (by simp)
  · rintro rfl
    exact decode_nil

/-- A character below `0x80` comes from its own byte only. -/
theorem mem_bytes_of_mem {bytes : List UInt8} {text : List Char}
    (h : decode bytes = some text) {c : Char} (small : c.toNat < 0x80) :
    c ∈ text → UInt8.ofNat c.toNat ∈ bytes := by
  refine decode_induction
    (motive := fun bytes text => c ∈ text → UInt8.ofNat c.toNat ∈ bytes)
    ?nil ?form h
  case nil => exact fun hc => absurd hc List.not_mem_nil
  case form =>
    intro form d rest text hform _ ih hc
    rcases List.mem_cons.1 hc with rfl | hc
    · rw [hform.eq_singleton_of_char small]
      exact List.mem_append_left _ List.mem_cons_self
    · exact List.mem_append_right _ (ih hc)

/-- A character below `0x80` at the end comes from a byte at the end. -/
theorem getLast?_bytes_of_getLast? {bytes : List UInt8} {text : List Char}
    (h : decode bytes = some text) {c : Char} (small : c.toNat < 0x80) :
    text.getLast? = some c → bytes.getLast? = some (UInt8.ofNat c.toNat) := by
  refine decode_induction
    (motive := fun bytes text => text.getLast? = some c →
      bytes.getLast? = some (UInt8.ofNat c.toNat)) ?nil ?form h
  case nil => exact fun hc => absurd hc (by simp)
  case form =>
    intro form d rest text hform hrest ih hc
    cases text with
    | nil =>
      obtain rfl := decode_eq_some_nil_iff.1 hrest
      obtain rfl : d = c := by simpa using hc
      rw [hform.eq_singleton_of_char small, List.append_nil]
      rfl
    | cons e text =>
      rw [List.getLast?_cons_cons] at hc
      rw [List.getLast?_append, ih hc]
      rfl

/-! ## Lines -/

/-- A carriage return at the end is taken away before or after decoding. -/
theorem decode_withoutReturn (line : List UInt8) :
    decode (Lines.withoutReturn 13 line)
      = (decode line).map (Lines.withoutReturn '\r') := by
  by_cases h : line.getLast? = some 13
  · obtain ⟨front, rfl⟩ := List.getLast?_eq_some_iff.1 h
    have hline : Lines.withoutReturn 13 (front ++ [13]) = front := by
      simp [Lines.withoutReturn]
    rw [hline, decode_append_cons (b := 13) (by decide), decode_nil]
    cases decode front with
    | none => rfl
    | some x => simp [Lines.withoutReturn]
  · have hline : Lines.withoutReturn 13 line = line := by
      simp [Lines.withoutReturn, h]
    rw [hline]
    cases htext : decode line with
    | none => rfl
    | some text =>
      have hlast : text.getLast? ≠ some '\r' := fun hlast =>
        h (getLast?_bytes_of_getLast? htext (by decide) hlast)
      simp [Lines.withoutReturn, hlast]

/-- **The lines of a text are the lines of its bytes, decoded.** -/
theorem map_decode_ofBytes {bytes : List UInt8} :
    ∀ {text : List Char}, decode bytes = some text →
      (Lines.ofBytes bytes).toList.map decode
        = (Lines.ofChars text).toList.map some := by
  unfold Lines.ofBytes Lines.ofChars
  induction bytes using Lines.line_induction (10 : UInt8) with
  | rest bytes hbytes =>
    intro text h
    have htext : '\n' ∉ text := fun hmem =>
      hbytes (mem_bytes_of_mem h (by decide) hmem)
    rw [Lines.toList_cut_of_not_mem hbytes, Lines.toList_cut_of_not_mem htext]
    cases bytes with
    | nil =>
      rw [decode_nil] at h
      obtain rfl := Option.some.inj h
      rfl
    | cons a bytes =>
      cases text with
      | nil => exact absurd (decode_eq_some_nil_iff.1 h) (by simp)
      | cons c text => simp [h]
  | line line bytes hline ih =>
    intro text h
    rw [decode_append_cons (b := 10) (by decide)] at h
    obtain ⟨front, hfront, h⟩ := Option.bind_eq_some_iff.1 h
    obtain ⟨back, hback, rfl⟩ := Option.map_eq_some_iff.1 h
    have hnot : '\n' ∉ front := fun hmem =>
      hline (mem_bytes_of_mem hfront (by decide) hmem)
    have hfeed : Char.ofNat (10 : UInt8).toNat = '\n' := by decide
    rw [hfeed, Lines.toList_cut_append_cons hline,
      Lines.toList_cut_append_cons hnot, List.map_cons, List.map_cons, ih hback,
      decode_withoutReturn, hfront]
    rfl

/-! ## The first line that is not UTF-8 -/

/-- **Where a text ceases to be UTF-8**: the line at a position, counted from
zero, cannot be decoded, the lines before it can, and `front` is the text of
these lines together with the line feeds that end them. -/
structure BreaksAt (bytes : List UInt8) (k : Nat) (front : List Char) :
    Prop where
  /-- The line at the position is not UTF-8. -/
  broken : ∃ line, (bytes.splitOnP (· == 10))[k]? = some line
    ∧ decode line = none
  /-- All lines before it are. -/
  intact : ∀ i line, i < k → (bytes.splitOnP (· == 10))[i]? = some line →
    (decode line).isSome = true
  /-- What stands before the line. -/
  front_eq : decode (((bytes.splitOnP (· == 10)).take k).flatMap (· ++ [10]))
    = some front

/-- The pieces of a text are its first line and the pieces of the rest. -/
theorem splitOnP_append_cons {line : List UInt8} (h : 10 ∉ line)
    (bytes : List UInt8) :
    (line ++ 10 :: bytes).splitOnP (· == 10)
      = line :: bytes.splitOnP (· == 10) :=
  List.splitOnP_append_cons_of_forall_mem (Lines.beq_lineFeed_eq_false h) 10
    rfl bytes

/-- **A text that is not UTF-8 has a first line that is not.** -/
theorem exists_breaksAt {bytes : List UInt8} :
    decode bytes = none → ∃ k front, BreaksAt bytes k front := by
  induction bytes using Lines.line_induction (10 : UInt8) with
  | rest bytes hbytes =>
    intro h
    have hpieces := List.splitOnP_eq_singleton (Lines.beq_lineFeed_eq_false hbytes)
    refine ⟨0, [], ⟨bytes, by rw [hpieces]; rfl, h⟩, ?_, decode_nil⟩
    exact fun i line hi _ => absurd hi (Nat.not_lt_zero i)
  | line line bytes hline ih =>
    intro h
    have hpieces := splitOnP_append_cons hline bytes
    cases hfirst : decode line with
    | none =>
      refine ⟨0, [], ⟨line, by rw [hpieces]; rfl, hfirst⟩, ?_, decode_nil⟩
      exact fun i line hi _ => absurd hi (Nat.not_lt_zero i)
    | some x =>
      have hrest : decode bytes = none := by
        rw [decode_append_cons (b := 10) (by decide), hfirst] at h
        simpa using h
      obtain ⟨k, front, ⟨bad, hbad, hnone⟩, hintact, hfront⟩ := ih hrest
      refine ⟨k + 1, x ++ '\n' :: front, ⟨bad, ?_, hnone⟩, ?_, ?_⟩
      · rw [hpieces, List.getElem?_cons_succ]
        exact hbad
      · intro i piece hi hpiece
        rw [hpieces] at hpiece
        cases i with
        | zero =>
          obtain rfl := Option.some.inj hpiece
          rw [hfirst]
          rfl
        | succ i => exact hintact i piece (by omega) hpiece
      · rw [hpieces, List.take_succ_cons, List.flatMap_cons, List.append_assoc,
          List.singleton_append, decode_append_cons (b := 10) (by decide),
          hfirst, hfront]
        rfl

/-- **The lines up to the first that is not UTF-8** are those of the text
before it. -/
theorem BreaksAt.map_decode {bytes : List UInt8} :
    ∀ {k : Nat} {front : List Char}, BreaksAt bytes k front →
      ∃ more, (Lines.ofBytes bytes).toList.map decode
        = (Lines.ofChars front).toList.map some ++ none :: more := by
  induction bytes using Lines.line_induction (10 : UInt8) with
  | rest bytes hbytes =>
    rintro k front ⟨⟨bad, hbad, hnone⟩, -, hfront⟩
    have hpieces := List.splitOnP_eq_singleton (Lines.beq_lineFeed_eq_false hbytes)
    rw [hpieces] at hbad hfront
    cases k with
    | zero =>
      obtain rfl := Option.some.inj hbad
      obtain rfl := Option.some.inj (decode_nil.symm.trans hfront)
      unfold Lines.ofBytes
      rw [Lines.toList_cut_of_not_mem hbytes]
      cases bytes with
      | nil => exact absurd (decode_nil.symm.trans hnone) (by simp)
      | cons a bytes => exact ⟨[], by simp [hnone]; rfl⟩
    | succ k => exact absurd hbad (by simp)
  | line line bytes hline ih =>
    rintro k front ⟨⟨bad, hbad, hnone⟩, hintact, hfront⟩
    have hpieces := splitOnP_append_cons hline bytes
    rw [hpieces] at hbad hintact hfront
    have hlines : (Lines.ofBytes (line ++ 10 :: bytes)).toList.map decode
        = (decode line).map (Lines.withoutReturn '\r')
          :: (Lines.ofBytes bytes).toList.map decode := by
      unfold Lines.ofBytes
      rw [Lines.toList_cut_append_cons hline, List.map_cons,
        decode_withoutReturn]
    cases k with
    | zero =>
      obtain rfl := Option.some.inj hbad
      obtain rfl := Option.some.inj (decode_nil.symm.trans hfront)
      rw [hlines, hnone]
      exact ⟨_, rfl⟩
    | succ k =>
      rw [List.take_succ_cons, List.flatMap_cons, List.append_assoc,
        List.singleton_append,
        decode_append_cons (b := 10) (by decide)] at hfront
      obtain ⟨x, hx, hfront⟩ := Option.bind_eq_some_iff.1 hfront
      obtain ⟨y, hy, rfl⟩ := Option.map_eq_some_iff.1 hfront
      have hnot : '\n' ∉ x := fun hmem =>
        hline (mem_bytes_of_mem hx (by decide) hmem)
      have hfeed : Char.ofNat (10 : UInt8).toNat = '\n' := by decide
      obtain ⟨more, hmore⟩ := ih ⟨⟨bad, hbad, hnone⟩,
        fun i piece hi hpiece => hintact (i + 1) piece (by omega) hpiece, hy⟩
      refine ⟨more, ?_⟩
      rw [hlines, hx, hmore, hfeed]
      unfold Lines.ofChars
      rw [Lines.toList_cut_append_cons hnot]
      rfl

end Utf8

end CanCatalog.Text
