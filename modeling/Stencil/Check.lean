import Stencil.Source
import Stencil.Token.Scan
import Stencil.Trigger.Registry

/-!
# Checking templates

A check looks at the tokens of a template without resolving any of them and lists those whose
names the registry does not know. Tokens that only arise from other triggers' values are not
seen.
-/

namespace Stencil

/-- A token whose trigger is not registered. -/
structure Finding where
  line : Nat
  /-- The character column, counted from 1. -/
  column : Nat
  name : String
  token : String
deriving DecidableEq, Repr

/-- The result of a check. -/
structure CheckReport where
  template : String
  backend : String
  lines : Nat := 0
  /-- The lines that carry macros. -/
  macroLines : Nat := 0
  tokens : Nat := 0
  unknown : List Finding := []
deriving DecidableEq, Repr

namespace CheckReport

/-- Nothing was found. -/
def isClean (r : CheckReport) : Bool := r.unknown.isEmpty

/-- The findings among the tokens of a line. -/
def findings (registry : Registry) (line : Line) : List Finding :=
  ((locate List.length 1 (pieces line.text.toList)).filter
    fun t => !registry.contains t.2.name).map fun t =>
      { line := line.number
        column := t.1
        name := t.2.name
        token := String.ofList t.2.source }

/-- The report with a further line. -/
def addLine (registry : Registry) (r : CheckReport) (line : Line) : CheckReport :=
  if carriesMacros line.text.toList then
    { r with
      lines := r.lines + 1
      macroLines := r.macroLines + 1
      tokens := r.tokens + (tokenize line.text).length
      unknown := r.unknown ++ findings registry line }
  else { r with lines := r.lines + 1 }

end CheckReport

/-- The check of a template against a registry. -/
def checkTemplate (name : String) (registry : Registry) (source : Source) :
    Except IoError CheckReport :=
  match source.failure with
  | some cause => .error cause
  | none =>
    .ok (source.lines.foldl (CheckReport.addLine registry)
      { template := name, backend := registry.label })

end Stencil
