import Stencil.Emit.Fields
import Stencil.Text.Casing

/-!
# Triggers of every backend

Business values, conditional directives, table binding, scratch slots, letter case, date and
time, and the two triggers that process sub-templates.
-/

namespace Stencil.Shared

/-- A trigger that gives a text read off the current context. -/
def ofContext (name summary : String) (text : Context → String) : Trigger where
  name
  summary
  maxParams := some 0
  resolve _ := do
    let c ← Action.getContext
    pure (some (text c))

/-- The program name. -/
def program : Trigger := ofContext "PGM" "Program name" (·.business.programName)

/-- The insurance line. -/
def insuranceLine : Trigger := ofContext "LOB" "Insurance line code" (·.business.insuranceLine)

/-- The process type. -/
def processType : Trigger := ofContext "PROC" "Process type" (·.business.processType)

/-- The linkage text that the directives compare with. -/
def linkage : Trigger := ofContext "LINK" "Linkage prefix" (·.business.linkage)

/-- Sets the linkage text for the rest of the template. -/
def setLinkage : Trigger where
  name := "SETLINK"
  summary := "Set the linkage prefix: |prefix|"
  maxParams := some 1
  resolve ps := do
    Action.modify (.linkage (Text.trim (ps.head?.getD "")))
    pure none

/-- Binds a table; without a name it unbinds the one that is bound. -/
def bindTable : Trigger where
  name := "TABLE"
  summary := "Bind a table: |name|"
  maxParams := some 1
  resolve ps := do
    match param ps 0 with
    | none => Action.modify .unbind
    | some name =>
      let listing ← Action.getTables
      Action.modify (.bind (.ofListing listing name))
    pure none

/-- The name of the bound table. -/
def tableName : Trigger := ofContext "TABNAME" "Bound table name" fun c => c.tableName.getD ""

/-- The index of the bound table. -/
def tableIndex : Trigger :=
  ofContext "TABIDX" "Bound table index" fun c =>
    match c.table with
    | some b => toString b.index
    | none => ""

/-- Stores a value in a scratch slot. -/
def setSlot : Trigger where
  name := "SET"
  summary := "Store a scratch value: |slot|value|"
  maxParams := some 2
  resolve ps := do
    match param ps 0 with
    | none => pure none
    | some slot =>
      Action.modify (.slot slot (ps[1]?.getD ""))
      pure none

/-- Reads a scratch slot. -/
def getSlot : Trigger where
  name := "GET"
  summary := "Read a scratch value: |slot|"
  maxParams := some 1
  resolve ps := do
    let c ← Action.getContext
    pure (some (((param ps 0).bind c.slot?).getD ""))

/-- A trigger that changes its first parameter, and gives nothing without one. -/
def ofText (name summary : String) (f : String → String) : Trigger where
  name
  summary
  maxParams := some 1
  resolve ps := pure (ps.head?.map f)

/-- A text in upper case. -/
def upperCase : Trigger := ofText "UPPER" "Upper-case: |text|" Text.fullUpper

/-- A text in lower case. -/
def lowerCase : Trigger := ofText "LOWER" "Lower-case: |text|" Text.fullLower

/-- The date of the run. -/
def date : Trigger where
  name := "DATE"
  summary := "Run date: |ISO| or |COMPACT|"
  maxParams := some 1
  resolve ps := do
    let c ← Action.getContext
    let separator := if (param ps 0).map Text.upper = some "COMPACT" then "" else "-"
    pure (some (c.startedAt.dateText separator))

/-- The time of the run. -/
def time : Trigger := ofContext "TIME" "Run time" (·.startedAt.timeText)

/-- A conditional directive: its payload when the guard equals the linkage text just if it is
`keepsMatch`, and nothing otherwise. -/
def conditional (name summary : String) (keepsMatch : Bool) : Trigger where
  name
  summary
  resolve ps := do
    let c ← Action.getContext
    let isMatch := ps.head?.getD "" == c.business.linkage
    pure (some (if isMatch == keepsMatch then ps[1]?.getD "" else ""))

/-- The directive that keeps the rest of the line on a match. -/
def keepIf : Trigger :=
  conditional "<" "Keep the rest of the line if the linkage prefix matches: |prefix|rest" true

/-- The directive that keeps the rest of the line unless there is a match. -/
def keepUnless : Trigger :=
  conditional "!" "Keep the rest of the line unless the linkage prefix matches: |prefix|rest" false

/-- Processes a sub-template in place of the line. -/
def subTemplate : Trigger where
  name := "INCLUDE"
  summary := "Process a sub-template in place of this line: |template|"
  replacesLine := true
  maxParams := some 1
  resolve ps := do
    match param ps 0 with
    | none => pure none
    | some template =>
      Action.callTemplate template false []
      pure none

/-- The tables whose names begin with a text, both in upper case; all tables without one. -/
def tablesFrom (listing : List (String × Nat)) (start : Option String) : List (String × Nat) :=
  match start with
  | none => listing
  | some s =>
    listing.filter fun t => (Text.upper s).toList.isPrefixOf (Text.upper t.1).toList

/-- Processes a sub-template once for every table of the schema. -/
def eachTable : Trigger where
  name := "EACHTABLE"
  summary := "Process a sub-template per schema table: |template|prefix|"
  replacesLine := true
  maxParams := some 2
  resolve ps := do
    match param ps 0 with
    | none => pure none
    | some template =>
      let listing ← Action.getTables
      Action.forEach (tablesFrom listing (param ps 1)) fun t =>
        Action.callTemplate template false [.bind { table := t.1, index := t.2 }]
      pure none

/-- The shared triggers. -/
def triggers : List Trigger :=
  [keepIf, keepUnless, subTemplate, eachTable, program, insuranceLine, processType, linkage,
   setLinkage, bindTable, tableName, tableIndex, setSlot, getSlot, upperCase, lowerCase, date,
   time]

end Stencil.Shared
