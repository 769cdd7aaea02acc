/-!
# Reports

What a run counts and notes.
-/

namespace Stencil

/-- What becomes of a token whose trigger is not registered. -/
inductive UnknownPolicy where
  | keep
  | remove
deriving DecidableEq, Repr

/-- The bounds of a run and its policy for unknown macros. -/
structure Limits where
  /-- Passes allowed per line; zero counts as one. -/
  maxIterations : Nat := 10
  /-- Sub-template nesting allowed below the root. -/
  maxDepth : Nat := 16
  unknown : UnknownPolicy := .keep
deriving DecidableEq, Repr

/-- Passes that a line may take. -/
def Limits.passes (l : Limits) : Nat := max l.maxIterations 1

/-- A token or a text left unresolved. -/
structure Unresolved where
  template : String
  line : Nat
  text : String
deriving DecidableEq, Repr

/-- What happened during a run. -/
structure Report where
  linesRead : Nat := 0
  linesWritten : Nat := 0
  /-- Passes over lines that carry macros. -/
  passes : Nat := 0
  unknownTriggers : List Unresolved := []
  /-- Lines written with macros left because the passes were used up. -/
  runawayLines : List Unresolved := []
  schemaFallbacks : Nat := 0
  subTemplates : Nat := 0
  /-- The sub-templates opened, in the order of their first use. -/
  subTemplateNames : List String := []
deriving DecidableEq, Repr

namespace Report

/-- Nothing was left unresolved. -/
def isClean (r : Report) : Bool := r.unknownTriggers.isEmpty && r.runawayLines.isEmpty

/-- The report with an unknown token, noted once. -/
def noteUnknown (r : Report) (u : Unresolved) : Report :=
  if u ∈ r.unknownTriggers then r
  else { r with unknownTriggers := r.unknownTriggers ++ [u] }

/-- The report with a line that did not settle. -/
def noteRunaway (r : Report) (u : Unresolved) : Report :=
  { r with runawayLines := r.runawayLines ++ [u] }

/-- The report with a sub-template, noted once. -/
def noteTemplate (r : Report) (name : String) : Report :=
  if name ∈ r.subTemplateNames then r
  else { r with subTemplateNames := r.subTemplateNames ++ [name] }

end Report

end Stencil
