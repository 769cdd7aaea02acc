import Stencil.Proofs.Run.Stages

/-!
# What a report keeps

The unknown tokens, the runaway lines and the sub-templates that a run has noted stay in its report.
`Report.Extends` says so of two reports; whatever is done on a line (`Reaches.extends`) and from
stage to stage (`Goes.extends`) the report is only extended. So what the report of a whole run lacks
was noted at no time, and what was noted at some time is in it.
-/

namespace Stencil

/-! ## Reports -/

/-- All that the report `p` notes is noted in the report `q`. -/
structure Report.Extends (p q : Report) : Prop where
  unknown : p.unknownTriggers ⊆ q.unknownTriggers
  runaway : p.runawayLines ⊆ q.runawayLines
  opened : p.subTemplateNames ⊆ q.subTemplateNames

namespace Report

variable {p q : Report} {u : Unresolved}

theorem mem_noteUnknown {v : Unresolved} :
    u ∈ (p.noteUnknown v).unknownTriggers ↔ u ∈ p.unknownTriggers ∨ u = v := by
  rw [noteUnknown]
  split
  · next hv =>
    constructor
    · exact .inl
    · rintro (hu | rfl)
      · exact hu
      · exact hv
  · simp

theorem mem_noteTemplate {name t : String} :
    t ∈ (p.noteTemplate name).subTemplateNames ↔ t ∈ p.subTemplateNames ∨ t = name := by
  rw [noteTemplate]
  split
  · next hname =>
    constructor
    · exact .inl
    · rintro (ht | rfl)
      · exact ht
      · exact hname
  · simp

namespace Extends

/-- A report that differs in its counts only. -/
theorem of_eq (hunknown : q.unknownTriggers = p.unknownTriggers)
    (hrunaway : q.runawayLines = p.runawayLines)
    (hopened : q.subTemplateNames = p.subTemplateNames) : p.Extends q :=
  ⟨fun _ h => hunknown ▸ h, fun _ h => hrunaway ▸ h, fun _ h => hopened ▸ h⟩

theorem refl : p.Extends p := of_eq rfl rfl rfl

theorem trans {p' : Report} (h : p.Extends q) (h' : q.Extends p') : p.Extends p' :=
  ⟨fun _ hu => h'.unknown (h.unknown hu), fun _ hu => h'.runaway (h.runaway hu),
    fun _ ht => h'.opened (h.opened ht)⟩

theorem noteUnknown (p : Report) (u : Unresolved) : p.Extends (p.noteUnknown u) := by
  refine ⟨fun _ h => mem_noteUnknown.2 (.inl h), fun _ h => ?_, fun _ h => ?_⟩ <;>
    · rw [Report.noteUnknown]
      split <;> exact h

theorem noteRunaway (p : Report) (u : Unresolved) : p.Extends (p.noteRunaway u) :=
  ⟨fun _ h => h, fun _ h => List.mem_append_left _ h, fun _ h => h⟩

theorem noteTemplate (p : Report) (name : String) : p.Extends (p.noteTemplate name) := by
  refine ⟨fun _ h => ?_, fun _ h => ?_, fun _ h => mem_noteTemplate.2 (.inl h)⟩ <;>
    · rw [Report.noteTemplate]
      split <;> exact h

end Extends

end Report

/-! ## Runs -/

namespace Engine

variable {e : Engine} {room : Nat} {scope : Scope} {r s : Run} {g h : Stage}

theorem Step.extends (h : Step e r s) : r.report.Extends s.report := by
  cases h with
  | unknown => exact .noteUnknown _ _
  | runaway => exact .noteRunaway _ _
  | change | showToken | hideToken | answered | fallback | write | pass => exact .of_eq rfl rfl rfl

/-- Whatever is done extends the report. -/
theorem Reaches.extends (h : Reaches e room scope r s) : r.report.Extends s.report := by
  induction h with
  | refl => exact .refl
  | step _ hstep ih => exact ih.trans hstep.extends
  | line _ number ih => exact ih.trans (.of_eq rfl rfl rfl)
  | call _ template isMain setup nested ih ihnested =>
    exact ih.trans ((Report.Extends.noteTemplate _ template).trans
      (ihnested.trans (.of_eq rfl rfl rfl)))

theorem apply_extends {i : Instruction} (hi : i.apply r = .ok s) :
    r.report.Extends s.report := by
  cases i with
  | noteUnknown t =>
    cases hi
    exact .noteUnknown _ _
  | noteRunaway text =>
    cases hi
    exact .noteRunaway _ _
  | beginLine | beginPass | showToken | hideToken | change =>
    cases hi
    exact .of_eq rfl rfl rfl
  | write =>
    obtain ⟨sink, -, rfl⟩ := Instruction.apply_write hi
    exact .of_eq rfl rfl rfl
  | flush =>
    obtain ⟨sink, -, rfl⟩ := Instruction.apply_flush hi
    exact .of_eq rfl rfl rfl

theorem Move.extends (h : Move e r s) : r.report.Extends s.report := by
  cases h with
  | rest => exact .refl
  | act i hi => exact apply_extends hi
  | enter template => exact .noteTemplate _ template
  | answered | fallback | leave => exact .of_eq rfl rfl rfl

/-- From stage to stage the report is extended. -/
theorem Goes.extends (hgoes : Goes e g h) : g.run.report.Extends h.run.report :=
  hgoes.invariant (P := fun s => g.run.report.Extends s.report)
    (fun _ _ hmove hr => hr.trans hmove.extends) .refl

/-- So it is by following a plan. -/
theorem follow_extends {α : Type} (p : Plan α) (r : Run) :
    r.report.Extends (p.follow e (callAtDepth e) r).2.report :=
  follow_invariant (P := fun s => r.report.Extends s.report)
    (fun _ _ hmove hr => hr.trans hmove.extends) p .refl

end Engine

end Stencil
