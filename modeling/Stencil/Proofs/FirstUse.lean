import Mathlib.Data.List.Induction
import Mathlib.Data.List.Nodup

/-!
# The order of first use

`List.eraseDups` lists the elements of a list in the order in which they come first. It is computed
from the front; these lemmas say what a further element at the end does (`eraseDups_concat`), which
is what a log or a table that grows needs.
-/

namespace Stencil

variable {α : Type} [DecidableEq α]

/-- A further element is listed unless it was listed before. -/
theorem eraseDups_concat (l : List α) (a : α) :
    (l ++ [a]).eraseDups = if a ∈ l.eraseDups then l.eraseDups else l.eraseDups ++ [a] := by
  rw [List.eraseDups_append]
  by_cases ha : a ∈ l
  · rw [if_pos (List.mem_eraseDups.2 ha)]
    simp [List.removeAll, ha]
  · rw [if_neg (mt List.mem_eraseDups.1 ha)]
    simp [List.removeAll, ha, List.eraseDups_cons]

/-- What is listed in the order of first use is listed once. -/
theorem nodup_eraseDups (l : List α) : l.eraseDups.Nodup := by
  induction l using List.reverseRecOn with
  | nil => exact List.nodup_nil
  | append_singleton l a ih =>
    rw [eraseDups_concat]
    split
    · exact ih
    · next ha =>
      refine List.nodup_append.2 ⟨ih, List.pairwise_singleton _ a, fun b hb c hc => ?_⟩
      rintro rfl
      exact ha (List.mem_singleton.1 hc ▸ hb)

end Stencil
