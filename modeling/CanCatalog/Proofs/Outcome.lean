/-!
# Outcomes

A computation that may fail is taken apart by asking how it can have come to
its outcome: a chain of two succeeds if both do, and fails if the first does,
or the second on what the first produced. These are the equations for `Except`
that the proofs about readings are made of.
-/

namespace Except

variable {ε ε' α β : Type}

theorem bind_eq_ok_iff {x : Except ε α} {f : α → Except ε β} {b : β} :
    x.bind f = .ok b ↔ ∃ a, x = .ok a ∧ f a = .ok b := by
  cases x with
  | error e => exact ⟨fun h => absurd h (by simp [Except.bind]), by simp⟩
  | ok a =>
    constructor
    · exact fun h => ⟨a, rfl, h⟩
    · rintro ⟨a', ha, h⟩
      obtain rfl := Except.ok.inj ha
      exact h

theorem bind_eq_error_iff {x : Except ε α} {f : α → Except ε β} {e : ε} :
    x.bind f = .error e
      ↔ x = .error e ∨ ∃ a, x = .ok a ∧ f a = .error e := by
  cases x with
  | error e' => simp [Except.bind]
  | ok a => simp [Except.bind]

theorem map_eq_ok_iff {x : Except ε α} {f : α → β} {b : β} :
    x.map f = .ok b ↔ ∃ a, x = .ok a ∧ f a = b := by
  cases x with
  | error e => simp [Except.map]
  | ok a => simp [Except.map]

theorem map_eq_error_iff {x : Except ε α} {f : α → β} {e : ε} :
    x.map f = .error e ↔ x = .error e := by
  cases x with
  | error e' => simp [Except.map]
  | ok a => simp [Except.map]

@[simp]
theorem mapError_error (f : ε → ε') (e : ε) :
    (.error e : Except ε α).mapError f = .error (f e) :=
  rfl

@[simp]
theorem mapError_ok (f : ε → ε') (a : α) :
    (.ok a : Except ε α).mapError f = .ok a :=
  rfl

theorem mapError_eq_ok_iff {x : Except ε α} {f : ε → ε'} {a : α} :
    x.mapError f = .ok a ↔ x = .ok a := by
  cases x <;> simp

theorem mapError_eq_error_iff {x : Except ε α} {f : ε → ε'} {e : ε'} :
    x.mapError f = .error e ↔ ∃ e', x = .error e' ∧ f e' = e := by
  cases x <;> simp

/-- A computation whose value can be checked has one. -/
theorem exists_of_any {x : Except ε α} {P : α → Bool}
    (h : x.toOption.any P = true) : ∃ a, x = .ok a ∧ P a = true := by
  cases x with
  | error e => exact absurd h (by simp [Except.toOption])
  | ok a => exact ⟨a, rfl, h⟩

/-- A computation whose error can be compared has this error. -/
theorem eq_error_of_decide [DecidableEq ε] {x : Except ε α} {e : ε}
    (h : (match x with
      | .error e' => decide (e' = e)
      | .ok _ => false) = true) : x = .error e := by
  cases x with
  | error e' => exact congrArg _ (of_decide_eq_true h)
  | ok a => exact absurd h Bool.false_ne_true

/-- A change of the value does not touch the error. -/
theorem mapError_map_congr {x y : Except ε α} {f : ε → ε'} (g : α → β)
    (h : x.mapError f = y.mapError f) :
    (x.map g).mapError f = (y.map g).mapError f := by
  cases x <;> cases y <;> simp_all [Except.map]

end Except
