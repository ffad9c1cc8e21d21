import OpenWrtCopilot.Verified.PyText

/-!
# The lines a reader sees

A text that is put together line by line is read back into lines by somebody else, who may take
more characters than the newline for the end of a line.
-/

namespace OpenWrtCopilot.Verified

open PyText

/-- Lines that follow others are joined on their own. -/
theorem join_append (sep : Text) {before after : List Text} (hbefore : before ≠ [])
    (hafter : after ≠ []) :
    join sep (before ++ after) = join sep before ++ sep ++ join sep after := by
  induction before with
  | nil => exact absurd rfl hbefore
  | cons line before ih =>
    rw [List.cons_append,
      join_cons_of_ne_nil _ _ (List.append_ne_nil_of_right_ne_nil before hafter)]
    by_cases hnil : before = []
    · rw [hnil, List.nil_append, join_singleton]
    · rw [ih hnil, join_cons_of_ne_nil _ _ hnil]
      simp only [List.append_assoc]

namespace LineBreaks

variable (breaks : LineBreaks)

variable {breaks}

end LineBreaks

end OpenWrtCopilot.Verified
