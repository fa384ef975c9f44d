import CanCatalog.Proofs.Reading.Lines
import CanCatalog.Proofs.Statement.Words
import CanCatalog.Proofs.Text.Cut
import Mathlib.Data.List.Forall2

/-!
# Errors and the lines before them

A reading stops at the first line that is refused. What that line says depends
on the lines before it and on nothing else, so the error is the same for all
texts that agree up to that line, and the lines before it are a text that is
read without an error. The selection of messages at the end has no part in
this: it happens when no error is possible any more.

One detail needs care. The lines before the error can be written down as a
text of their own, but a line may end in a carriage return that the line feed
would take away. The text is then another one, and it is read all the same,
because a carriage return at the end of a line is white space
(`Progress.Coherent.readLines_alike`).
-/

namespace CanCatalog

/-- An error without the line that it quotes. -/
def ReadError.withoutContent : ReadError → ReadError
  | atLine n fault => atLine n fault.withoutContent
  | inSource fault => inSource fault

namespace Progress

/-! ## Lines that are alike -/

/-- A line is read like one that is alike. -/
theorem Coherent.readLine_alike {p : Progress} (h : p.Coherent) (o : Options)
    {a b : List Char} (hab : Statement.Alike a b) :
    (p.readLine o a).mapError ReadError.withoutContent
      = (p.readLine o b).mapError ReadError.withoutContent := by
  have hread := hab.ofLine_eq p.current.isSome
  rw [h.readLine_eq, h.readLine_eq]
  cases ha : Statement.ofLine p.current.isSome a with
  | error fault =>
    cases hb : Statement.ofLine p.current.isSome b with
    | error fault' =>
      rw [ha, hb] at hread
      exact congrArg (fun f => Except.error (ReadError.atLine (p.lines + 1) f))
        (Except.error.inj hread)
    | ok st =>
      rw [ha, hb] at hread
      exact absurd hread (by simp)
  | ok st =>
    rw [hab.ofLine_eq_ok_iff.1 ha]

/-- **Lines are read like others that are alike**, one by one. -/
theorem Coherent.readLines_alike {o : Options} {as bs : List (List Char)}
    (h : List.Forall₂ Statement.Alike as bs) :
    ∀ {p : Progress}, p.Coherent →
      (p.readLines o as).mapError ReadError.withoutContent
        = (p.readLines o bs).mapError ReadError.withoutContent := by
  induction h with
  | nil => exact fun _ => rfl
  | cons hab _ ih =>
    rename_i a b as bs _
    intro p hp
    have hline := hp.readLine_alike o hab
    rw [readLines_cons, readLines_cons]
    cases ha : p.readLine o a with
    | error e =>
      cases hb : p.readLine o b with
      | error e' => rw [ha, hb] at hline; exact hline
      | ok q =>
        rw [ha, hb] at hline
        exact absurd hline (by simp)
    | ok q =>
      have hb : p.readLine o b = .ok q := by
        rw [ha] at hline
        exact Except.mapError_eq_ok_iff.1 hline.symm
      rw [hb]
      exact ih (hp.of_readLine ha)

end Progress

namespace Reading

/-! ## Texts with the same lines -/

/-- A byte order mark at the front and a carriage return at the end are taken
off in either order. -/
theorem withoutMark_withoutReturn (line : List Char) :
    withoutMark (Text.Lines.withoutReturn '\r' line)
      = Text.Lines.withoutReturn '\r' (withoutMark line) := by
  match line with
  | [] => rfl
  | [c] =>
    by_cases hr : c = '\r'
    · subst hr
      decide
    · by_cases hm : c = byteOrderMark
      · subst hm
        decide
      · simp [withoutMark, Text.Lines.withoutReturn, hr, hm]
  | c :: d :: line =>
    have hlast : (c :: d :: line).getLast? = (d :: line).getLast? := by simp
    have hcut : Text.Lines.withoutReturn '\r' (c :: d :: line)
        = c :: Text.Lines.withoutReturn '\r' (d :: line) := by
      unfold Text.Lines.withoutReturn
      rw [hlast]
      split <;> rfl
    rw [hcut]
    unfold withoutMark
    rw [List.head?_cons, List.head?_cons]
    split
    · rfl
    · exact hcut.symm

/-- The lines of a text that is made of lines. -/
theorem linesOf_endEach {lines : List (List Char)}
    (h : ∀ line ∈ lines, '\n' ∉ line) :
    linesOf (Text.endEach lines)
      = (lines.modifyHead withoutMark).map (Text.Lines.withoutReturn '\r') := by
  unfold linesOf
  rw [Text.Lines.toList_ofChars_endEach h]
  cases lines with
  | nil => rfl
  | cons line lines =>
    rw [List.map_cons, List.modifyHead_cons, List.modifyHead_cons,
      List.map_cons, withoutMark_withoutReturn]

/-- **Lines that are read can be written down and read again.** -/
theorem exists_outcome_ofText_endEach {o : Options} {lines : List (List Char)}
    (hfeed : ∀ line ∈ lines, '\n' ∉ line) {p : Progress}
    (h : Progress.start.readLines o (lines.modifyHead withoutMark) = .ok p) :
    ∃ c, (ofText o (Text.endEach lines)).outcome = .ok c := by
  have halike : List.Forall₂ Statement.Alike
      ((lines.modifyHead withoutMark).map (Text.Lines.withoutReturn '\r'))
      (lines.modifyHead withoutMark) := by
    rw [List.forall₂_map_left_iff, List.forall₂_same]
    intro line _
    unfold Statement.Alike
    rw [Text.words_withoutReturn]
  have hread := Progress.Coherent.readLines_alike (o := o) halike
    Progress.coherent_start
  rw [h, ← linesOf_endEach hfeed] at hread
  exact ⟨_, outcome_ofText_eq_ok_iff.2
    ⟨p, Except.mapError_eq_ok_iff.1 hread, rfl⟩⟩

/-- **What comes behind the line of an error has no influence on it.** -/
theorem outcome_eq_of_take_eq {o : Options} {text other : List Char} {n : Nat}
    {fault : Fault} (h : (ofText o text).outcome = .error (.atLine n fault))
    (htake : (Text.Lines.ofChars other).toList.take n
      = (Text.Lines.ofChars text).toList.take n) :
    (ofText o other).outcome = .error (.atLine n fault) := by
  rw [outcome_ofText_eq_error_iff] at h ⊢
  obtain ⟨front, line, back, p, _, hlines, hp, hline, he⟩ :=
    exists_of_readLines_eq_error h
  obtain ⟨rfl, -⟩ : n = front.length + 1 ∧ _ := ReadError.atLine.inj he
  have hfront : (linesOf other).take (front.length + 1) = front ++ [line] := by
    have hsame : (linesOf other).take (front.length + 1)
        = (linesOf text).take (front.length + 1) := by
      unfold linesOf
      rw [List.take_modifyHead, List.take_modifyHead, htake]
    rw [hsame, hlines, take_append_cons]
  rw [← List.take_append_drop (front.length + 1) (linesOf other), hfront,
    List.append_assoc, List.singleton_append]
  exact Progress.readLines_eq_error_iff.2 ⟨front, line, _, p, rfl, hp, hline⟩

/-- The line of an error is a line of the text. -/
theorem line_le_of_outcome {o : Options} {text : List Char} {e : ReadError}
    (h : (ofText o text).outcome = .error e) :
    ∃ n fault, e = .atLine n fault ∧ 1 ≤ n
      ∧ n ≤ (Text.Lines.ofChars text).toList.length := by
  rw [outcome_ofText_eq_error_iff] at h
  obtain ⟨front, line, back, _, fault, hlines, -, -, he⟩ :=
    exists_of_readLines_eq_error h
  refine ⟨front.length + 1, fault, he, by omega, ?_⟩
  rw [← length_linesOf, hlines, List.length_append, List.length_cons]
  omega

/-- **The lines before the line of an error are read**, in whatever text they
are written, and also if each of them is ended again. -/
theorem exists_outcome_of_lt {o : Options} {text : List Char} {n : Nat}
    {fault : Fault} (h : (ofText o text).outcome = .error (.atLine n fault)) :
    (∀ front, (Text.Lines.ofChars front).toList
        = (Text.Lines.ofChars text).toList.take (n - 1) →
      ∃ c, (ofText o front).outcome = .ok c)
    ∧ ∃ c, (ofText o (Text.endEach
        ((Text.Lines.ofChars text).toList.take (n - 1)))).outcome = .ok c := by
  obtain ⟨_, _, he, hpos, -⟩ := line_le_of_outcome h
  obtain ⟨rfl, -⟩ := ReadError.atLine.inj he
  obtain ⟨p, hp⟩ : ∃ p, Progress.start.readLines o
      (((Text.Lines.ofChars text).toList.take (n - 1)).modifyHead withoutMark)
        = .ok p := by
    rw [← List.take_modifyHead]
    refine exists_readLines_take fun e m hread hm => ?_
    rw [outcome_ofText_eq_error_iff] at h
    obtain rfl := Except.error.inj (h.symm.trans hread)
    obtain rfl := Option.some.inj hm
    exact Nat.sub_lt hpos Nat.one_pos
  constructor
  · intro front hfront
    have hread : Progress.start.readLines o (linesOf front) = .ok p := by
      unfold linesOf
      rw [hfront]
      exact hp
    exact ⟨_, outcome_ofText_eq_ok_iff.2 ⟨p, hread, rfl⟩⟩
  · refine exists_outcome_ofText_endEach (fun line hline => ?_) hp
    exact Text.Lines.not_mem_of_mem_toList_cut text line
      (List.mem_of_mem_take hline)

/-- A text that ends with a line feed and is refused is refused whatever is
written behind it. -/
theorem outcome_append {o : Options} {text : List Char}
    (hended : text.getLast? = some '\n') {e : ReadError}
    (h : (ofText o text).outcome = .error e) (rest : List Char) :
    (ofText o (text ++ rest)).outcome = .error e := by
  obtain ⟨n, fault, rfl, -, hle⟩ := line_le_of_outcome h
  refine outcome_eq_of_take_eq h ?_
  have happend : (Text.Lines.ofChars (text ++ rest)).toList
      = (Text.Lines.ofChars text).toList ++ (Text.Lines.ofChars rest).toList :=
    Text.Lines.toList_cut_append text rest (.inr hended)
  rw [happend, List.take_append_of_le_length hle]

/-- **An error is that of the earliest faulty line, and nothing behind that
line matters.** The error belongs to a line of the text, and never to the
source. The lines before it are read without an error; every text that begins
with the same lines, up to this one, is refused with the same error; and so is
every continuation of an ended text. -/
theorem error_earliest (o : Options) (text : List Char) :
    (∀ e, (ofText o text).outcome = .error e →
      ∃ n fault, e = .atLine n fault ∧ e.line? = some n
        ∧ 1 ≤ n ∧ n ≤ (Text.Lines.ofChars text).toList.length
        ∧ (∃ c, (ofText o (Text.endEach
            ((Text.Lines.ofChars text).toList.take (n - 1)))).outcome = .ok c)
        ∧ (∀ front, (Text.Lines.ofChars front).toList
              = (Text.Lines.ofChars text).toList.take (n - 1) →
            ∃ c, (ofText o front).outcome = .ok c)
        ∧ ∀ other, (Text.Lines.ofChars other).toList.take n
              = (Text.Lines.ofChars text).toList.take n →
            (ofText o other).outcome = .error e)
    ∧ (text.getLast? = some '\n' → ∀ e, (ofText o text).outcome = .error e →
      ∀ rest, (ofText o (text ++ rest)).outcome = .error e) := by
  constructor
  · intro e h
    obtain ⟨n, fault, rfl, hpos, hle⟩ := line_le_of_outcome h
    obtain ⟨hfront, hended⟩ := exists_outcome_of_lt h
    exact ⟨n, fault, rfl, rfl, hpos, hle, hended, hfront,
      fun other htake => outcome_eq_of_take_eq h htake⟩
  · intro hended e h rest
    exact outcome_append hended h rest

end Reading

end CanCatalog
