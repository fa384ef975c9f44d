/-!
# Options of reading

Catalogue texts in use are full of repetitions, and by default a later
definition replaces an earlier one. Three checks can be asked for: that no
identifier is defined twice, that no name is defined twice within a message,
and that no range is empty.

Besides, the identifiers of interest can be listed. The list selects from what
was read; it does not change how a text is read, and in particular a fault in
a message that is not listed is still a fault.
-/

namespace CanCatalog

/-- **How strictly a text is read, and what is kept of it.** -/
structure Options where
  /-- Whether an identifier may not be defined again. -/
  rejectRepeatedMessages : Bool
  /-- Whether a name may not be defined again within its message. -/
  rejectRepeatedSignals : Bool
  /-- Whether a range has to hold a value. -/
  checkRanges : Bool
  /-- The identifiers of interest, or none if all are. -/
  onlyIds : Option (List UInt32)
deriving DecidableEq

namespace Options

/-- Everything is accepted and everything is kept. -/
def default : Options := ⟨false, false, false, none⟩

/-! ## One option changed

The other options remain as they are. -/

/-- The options with repeated identifiers rejected, or accepted. -/
def rejectingMessages (o : Options) (enabled : Bool) : Options :=
  { o with rejectRepeatedMessages := enabled }

/-- The options with names that are repeated in a message rejected, or
accepted. -/
def rejectingSignals (o : Options) (enabled : Bool) : Options :=
  { o with rejectRepeatedSignals := enabled }

/-- The options with ranges checked, or not. -/
def checkingRanges (o : Options) (enabled : Bool) : Options :=
  { o with checkRanges := enabled }

/-- The options with the identifiers of interest listed, instead of those that
were listed before. -/
def keepingOnly (o : Options) (ids : List UInt32) : Options :=
  { o with onlyIds := some ids }

/-- All checks are made, and everything is kept. -/
def strict : Options :=
  ((default.rejectingMessages true).rejectingSignals true).checkingRanges true

/-! ## The selection -/

/-- Whether a message under an identifier is kept. -/
def keeps (o : Options) (id : UInt32) : Bool :=
  match o.onlyIds with
  | none => true
  | some ids => ids.contains id

/-- **Listing identifiers keeps just those.** -/
theorem keeps_iff (o : Options) (id : UInt32) :
    o.keeps id = true ↔ ∀ ids, o.onlyIds = some ids → id ∈ ids := by
  unfold keeps
  split <;> simp_all

/-- Of the identifiers just those of the last list are kept. -/
theorem keeps_keepingOnly (o : Options) (ids : List UInt32) (id : UInt32) :
    (o.keepingOnly ids).keeps id = decide (id ∈ ids) :=
  List.contains_eq_mem id ids

end Options

end CanCatalog
