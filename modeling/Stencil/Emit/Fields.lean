import Stencil.Trigger.Registry

/-!
# Emitters

An emitter renders the fields of the bound table. It keeps the fields of its selection, and its
text is a function of those, of the current context and of the parameters. When there is
nothing to render, because no table is bound, the look-up failed or no field was selected, it
gives its placeholder instead.
-/

namespace Stencil

/-- The fields that an emitter renders. -/
inductive Selection where
  | all
  | keys
  | nonKeys
deriving DecidableEq, Repr

/-- How rendered fragments are joined. -/
inductive Join where
  /-- On one line. -/
  | inline (separator : String)
  /-- One fragment per line, the separator at the end of every line but the last and the
  further lines indented. -/
  | continued (separator : String)
deriving DecidableEq, Repr

namespace Selection

/-- The selected fields, `none` when there are none. -/
def fields (s : Selection) : Action (Option (List Field)) := do
  match ← Action.getFields (s == .keys) with
  | none => pure none
  | some fs =>
    let kept := if s = .nonKeys then fs.filter (!·.isKey) else fs
    pure (if kept.isEmpty then none else some kept)

end Selection

/-- The fragments joined, further lines indented by `indent`. -/
def Join.fragments (j : Join) (indent : Nat) (parts : List String) : String :=
  match j with
  | inline s => s.intercalate parts
  | continued s => Naming.joinContinued parts s indent

/-- The texts of the fields, by position and field, joined. -/
def Join.render (j : Join) (indent : Nat) (text : Nat → Field → String)
    (fs : List Field) : String :=
  j.fragments indent (fs.mapIdx text)

/-- A parameter without the blanks around it; a blank one counts as absent. -/
def param (ps : List String) (i : Nat) : Option String :=
  (ps[i]?.map Text.trim).filter (· != "")

/-- A macro that renders the fields of the bound table. -/
structure Emitter where
  name : String
  summary : String
  replacesLine : Bool := false
  maxParams : Option Nat
  selection : Selection := .all
  /-- The text when there is no field to render. -/
  placeholder : Context → List String → String
  /-- The text for the selected fields, of which there is one at least. -/
  text : Context → List String → List Field → String

namespace Emitter

/-- What an emitter gives for the selected fields. -/
def value (m : Emitter) (c : Context) (ps : List String) : Option (List Field) → String
  | none => m.placeholder c ps
  | some fs => m.text c ps fs

/-- The trigger of an emitter. -/
def trigger (m : Emitter) : Trigger where
  name := m.name
  summary := m.summary
  replacesLine := m.replacesLine
  maxParams := m.maxParams
  resolve ps := do
    let c ← Action.getContext
    let fs ← m.selection.fields
    pure (some (m.value c ps fs))

end Emitter

end Stencil
