import Stencil.Emit.Fields
import Stencil.Proofs.Run.Steps

/-!
# What emitters ask for

Every emitter makes the same two requests: it reads the context and looks up the fields of its
selection. `Emitter.resolve_eq` gives its action in this form, and `renders_value` what is rendered
for the fields that are found.
-/

namespace Stencil

/-- What a selection keeps of the fields that were looked up for it, `none` when that is nothing. -/
def Selection.keep (s : Selection) (fs : List Field) : Option (List Field) :=
  let kept := if s = .nonKeys then fs.filter (!·.isKey) else fs
  if kept.isEmpty then none else some kept

/-- An emitter's action. -/
theorem Emitter.resolve_eq (m : Emitter) (ps : List String) : m.trigger.resolve ps =
    .context fun c => .fields (m.selection == .keys) fun fs =>
      .done (some (m.value c ps (fs.bind m.selection.keep))) := by
  show Action.context _ = _
  congr 1
  funext c
  show Action.fields _ _ = _
  congr 1
  funext fs
  cases fs <;> rfl

namespace Engine

variable {e : Engine} {sub : Sub} {r : Run}

/-- In the run `r`, the emitter renders `text`. -/
def Renders (e : Engine) (sub : Sub) (r : Run) (m : Emitter) (ps : List String) (text : String) :
    Prop := (perform e sub (m.trigger.resolve ps) r).1 = .ok (some text)

/-- An emitter renders its value for the fields that are looked up for it. -/
theorem renders_value {m : Emitter} {fs : Option (List Field)}
    (hfs : (e.tableFields (m.selection == .keys) r).1 = .ok fs) (ps : List String) :
    Renders e sub r m ps (m.value r.context ps (fs.bind m.selection.keep)) := by
  rw [Renders, m.resolve_eq, perform, Effect.get_bind, perform, Effect.bind_eq]
  rcases hx : e.tableFields (m.selection == .keys) r with ⟨_, s⟩
  rw [hx] at hfs
  cases hfs
  rfl

end Engine

end Stencil
