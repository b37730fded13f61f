import RemoteModel.Calendar
import RemoteModel.Proofs.Json.Shown

/-!
Dates as text.
-/

namespace RemoteModel.Moment

theorem isWellFormed_padded (width n : Nat) : (padded width n).isWellFormed = true := by
  rw [padded, Text.isWellFormed_append, Bool.and_eq_true]
  refine ⟨Text.isWellFormed_iff.mpr fun r hr => ?_, Text.isWellFormed_scalars _⟩
  rw [List.eq_of_mem_replicate hr]
  rfl

section

variable {separator : Text} (hseparator : separator.isWellFormed = true) (m : Moment)
include hseparator

theorem isWellFormed_dateText : (dateText separator m).isWellFormed = true := by
  have hyear : m.yearText.isWellFormed = true := by
    rw [yearText]
    split
    next => exact Text.isWellFormed_ofInt m.year
    next => exact isWellFormed_padded 4 m.year.toNat
  simp [dateText, hyear, hseparator, isWellFormed_padded]

theorem isWellFormed_timeText : (timeText separator m).isWellFormed = true := by
  simp [timeText, hseparator, isWellFormed_padded]

end

theorem isWellFormed_basicText (m : Moment) : m.basicText.isWellFormed = true := by
  simp [basicText, isWellFormed_dateText, isWellFormed_timeText, Text.isWellFormed_ofString]

end RemoteModel.Moment
