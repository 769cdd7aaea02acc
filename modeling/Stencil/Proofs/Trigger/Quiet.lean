import Stencil.Proofs.Run.Steps
import Stencil.Proofs.Trigger.Local

/-!
# Triggers that write nothing themselves

Of the shipped triggers only those that replace their line have sub-templates processed, and none
writes lines of its own. All others do no more than give a text (`Backend.registry_quiet`), so that
a run has written the same after them as before (`perform_quiet`).
-/

namespace Stencil

/-! ## Actions -/

namespace Action

variable {α β : Type}

/-- The action writes nothing and has no sub-template processed. -/
def Quiet : Action α → Prop
  | done _ => True
  | fail _ => True
  | context k => ∀ c, (k c).Quiet
  | ancestry k => ∀ ts, (k ts).Quiet
  | live k => ∀ n, (k n).Quiet
  | limits k => ∀ l, (k l).Quiet
  | report k => ∀ r, (k r).Quiet
  | tables k => ∀ ts, (k ts).Quiet
  | fields _ k => ∀ fs, (k fs).Quiet
  | change _ k => k.Quiet
  | write _ _ => False
  | call .. => False

end Action

/-- A trigger whose actions are quiet, whatever its parameters. -/
def Trigger.Quiet (t : Trigger) : Prop := ∀ ps, (t.resolve ps).Quiet

namespace Engine

variable {e : Engine} {sub : Sub} {α : Type}

theorem tableFields_sink (e : Engine) (keysOnly : Bool) (r : Run) :
    (e.tableFields keysOnly r).2.sink = r.sink := by
  obtain h | ⟨_, _, -, h⟩ | ⟨_, _, -, h⟩ := tableFields_cases e keysOnly r <;> rw [h]

/-- A quiet action leaves what was written, when it fails, too. -/
theorem perform_quiet (sub : Sub) {a : Action α} (ha : a.Quiet) (r : Run) :
    (perform e sub a r).2.sink = r.sink := by
  induction a generalizing r with
  | done v => rfl
  | fail m => rfl
  | context k ih | ancestry k ih | live k ih | report k ih =>
    rw [perform, Effect.get_bind]
    exact ih _ (ha _) r
  | limits k ih | tables k ih => exact ih _ (ha _) r
  | fields b k ih =>
    rw [perform, Effect.bind_eq]
    have hfields := tableFields_sink e b r
    rcases hx : e.tableFields b r with ⟨_ | fs, s⟩
    · rwa [hx] at hfields
    · rw [hx] at hfields
      exact (ih fs (ha fs) s).trans hfields
  | change c k ih =>
    rw [perform, Effect.modify_bind]
    exact ih ha _
  | write l k ih => exact ha.elim
  | call t m s k ih => exact ha.elim

end Engine

/-! ## The backends -/

/-- An emitter only looks fields up. -/
theorem Emitter.quiet_trigger (m : Emitter) : m.trigger.Quiet := by
  intro ps
  rw [m.resolve_eq]
  exact fun _ _ => trivial

theorem Shared.quiet_triggers : ∀ t ∈ triggers, t.replacesLine = false → t.Quiet := by
  have hcontext {name summary : String} {text : Context → String} :
      (ofContext name summary text).Quiet := fun _ _ => trivial
  have htable : bindTable.Quiet := by
    intro ps
    simp only [bindTable]
    cases param ps 0 with
    | none => trivial
    | some name => exact fun _ => trivial
  have hset : setSlot.Quiet := by
    intro ps
    simp only [setSlot]
    cases param ps 0 <;> trivial
  have hreplaces {t : Trigger} (h : t.replacesLine = true) : t.replacesLine = false → t.Quiet := by
    intro hplain
    rw [h] at hplain
    cases hplain
  simp only [triggers, List.forall_mem_cons, List.not_mem_nil, false_implies, implies_true,
    and_true]
  exact ⟨fun _ _ _ => trivial, fun _ _ _ => trivial, hreplaces rfl, hreplaces rfl,
    fun _ => hcontext, fun _ => hcontext, fun _ => hcontext, fun _ => hcontext, fun _ _ => trivial,
    fun _ => htable, fun _ => hcontext, fun _ => hcontext, fun _ => hset, fun _ _ _ => trivial,
    fun _ _ => trivial, fun _ _ => trivial, fun _ _ _ => trivial, fun _ => hcontext⟩

theorem Cobol.quiet_triggers : ∀ t ∈ triggers, t.Quiet := by
  have hemitters : ∀ t ∈ (sqlEmitters ++ storageEmitters).map Emitter.trigger, t.Quiet := by
    intro t ht
    obtain ⟨m, -, rfl⟩ := List.mem_map.1 ht
    exact m.quiet_trigger
  have hcomment : comment.Quiet := fun _ => trivial
  have hheader : header.Quiet := fun _ _ => trivial
  simp only [triggers, List.cons_append, List.nil_append, List.forall_mem_cons]
  exact ⟨hcomment, hheader, hemitters⟩

theorem Java.quiet_triggers : ∀ t ∈ triggers, t.Quiet := by
  have hemitters : ∀ t ∈ emitters.map Emitter.trigger, t.Quiet := by
    intro t ht
    obtain ⟨m, -, rfl⟩ := List.mem_map.1 ht
    exact m.quiet_trigger
  have hcomment : comment.Quiet := fun _ _ => trivial
  have hclass : className.Quiet := fun _ _ => trivial
  simp only [triggers, List.cons_append, List.nil_append, List.forall_mem_cons]
  exact ⟨hcomment, hclass, hemitters⟩

/-- A registry in which all triggers are quiet that do not replace their line. -/
def Registry.Quiet (g : Registry) : Prop :=
  ∀ name t, g.find? name = some t → t.replacesLine = false → t.Quiet

theorem Backend.registry_quiet (b : Backend) : b.registry.Quiet := by
  intro name t h hplain
  rcases mem_of_find? h with hshared | hcobol | hjava
  · exact Shared.quiet_triggers t hshared hplain
  · exact Cobol.quiet_triggers t hcobol
  · exact Java.quiet_triggers t hjava

end Stencil
