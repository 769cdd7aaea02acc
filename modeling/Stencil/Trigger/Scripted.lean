import Stencil.Emit.Fields

/-!
# Scripted triggers

A trigger may also be given as data: a name and one of a fixed set of scripts. Scripted triggers
show the state of the run, change the current context in the permitted ways, and have
sub-templates processed.
-/

namespace Stencil

/-- What a scripted trigger does. `P0`, `P1`, … are its parameters, empty when absent. -/
inductive Script where
  /-- A fixed text. -/
  | text (value : String)
  /-- The parameters joined by `+`. -/
  | echo
  /-- No text. -/
  | nothing
  /-- The column of the token. -/
  | column
  /-- The text of the token. -/
  | token
  /-- The number of the line. -/
  | lineNumber
  /-- The templates up to the root. -/
  | ancestry
  /-- The state of the context. -/
  | state
  /-- The scratch slots. -/
  | slots
  /-- The counts of the report. -/
  | report
  /-- The limits of the run. -/
  | limits
  /-- The columns of the bound table's fields, or of its key fields. -/
  | columns (keysOnly : Bool)
  /-- The fields of a selection by position, joined. -/
  | fields (selection : Selection) (join : Join) (indent : Option Nat)
  /-- Writes a line. -/
  | write (line : String)
  /-- Sets the program name to `P0`. -/
  | setProgram
  /-- Processes the sub-template `P0`. -/
  | subTemplate (isMain : Bool)
  /-- Processes the sub-template `P0` with the table `P1` bound and `P2` in a slot. -/
  | boundTemplate
  /-- Fails. -/
  | fail (message : String)
deriving DecidableEq, Repr

namespace Script

/-- The parameter at a place, empty when absent. -/
def nth (ps : List String) (i : Nat) : String := ps[i]?.getD ""

/-- Parts separated by slashes. -/
def slashed (parts : List String) : String := "/".intercalate parts

/-- The state of a context in one text. -/
def stateText (c : Context) (live : Nat) : String :=
  slashed
    [c.template, toString c.depth, toString c.isMain, c.output, c.business.programName,
     c.business.linkage, c.tableName.getD "-", toString live]

/-- The slots in one text, sorted by name. -/
def slotsText (c : Context) : String :=
  ",".intercalate (c.slots.entries.map fun e => e.1 ++ "=" ++ e.2)

/-- The counts of a report in one text. -/
def reportText (r : Report) : String :=
  slashed
    ([r.linesRead, r.linesWritten, r.passes, r.unknownTriggers.length, r.runawayLines.length,
      r.schemaFallbacks, r.subTemplates].map toString)

/-- What a script does with the given parameters. -/
def resolve (ps : List String) : Script → Action (Option String)
  | text v => pure (some v)
  | echo => pure (some ("+".intercalate ps))
  | nothing => pure none
  | column => do
    let c ← Action.getContext
    pure (some (toString c.column))
  | token => do
    let c ← Action.getContext
    pure (some (c.token.getD ""))
  | lineNumber => do
    let c ← Action.getContext
    pure (some (toString c.line))
  | ancestry => .ancestry fun names => pure (some (">".intercalate names))
  | state => do
    let c ← Action.getContext
    .live fun n => pure (some (stateText c n))
  | slots => do
    let c ← Action.getContext
    pure (some (slotsText c))
  | report => .report fun r => pure (some (reportText r))
  | limits => .limits fun l =>
    pure (some (slashed [toString l.maxIterations, toString l.maxDepth]))
  | columns keysOnly => do
    match ← Action.getFields keysOnly with
    | none => pure (some "none")
    | some fs => pure (some (",".intercalate (fs.map (·.column))))
  | fields selection join indent => do
    let c ← Action.getContext
    match ← selection.fields with
    | none => pure (some "empty")
    | some fs =>
      pure (some (join.render (indent.getD c.column)
        (fun i f => toString i ++ ":" ++ f.column) fs))
  | write line => do
    Action.writeLine line
    pure none
  | setProgram => do
    Action.modify (.programName (nth ps 0))
    pure none
  | subTemplate isMain => do
    Action.callTemplate (nth ps 0) isMain []
    pure none
  | boundTemplate => do
    Action.callTemplate (nth ps 0) false
      [.bind { table := nth ps 1, index := 77 }, .slot "SLOT" (nth ps 2)]
    pure none
  | fail m => .fail m

/-- The trigger that runs a script. -/
def trigger (s : Script) (name : String) (replacesLine : Bool) (maxParams : Option Nat) :
    Trigger where
  name
  replacesLine
  maxParams
  resolve ps := s.resolve ps

end Script

end Stencil
