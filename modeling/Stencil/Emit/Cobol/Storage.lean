import Stencil.Emit.Cobol.Sql

/-!
# Host variables

Declarations of WORKING-STORAGE with their clauses aligned, and MOVE and DISPLAY statements.
-/

namespace Stencil.Cobol

/-- The record that stands for the host variables outside SQL. -/
def record : String := "HOST-RECORD"

/-- The host variable of a field within a record. -/
def ofRecord (qualifier : Option String) (f : Field) : String :=
  match qualifier with
  | some q => f.cobolName ++ " OF " ++ q
  | none => f.cobolName

/-- The level number given as first parameter. -/
def level (ps : List String) : String := (param ps 0).getD "05"

/-- Declarations of names with their clauses, the clauses aligned. -/
def declarations (level : String) (entries : List (String × String)) : List String :=
  entries.map fun e =>
    level ++ "  " ++ Text.padTo (widest (entries.map (·.1))) e.1 ++ "  " ++ e.2 ++ "."

/-- The number of fields. -/
def fieldCount : Emitter where
  name := "FLDCNT"
  summary := "Number of fields in the bound table"
  maxParams := some 0
  placeholder _ _ := "0"
  text _ _ fs := toString fs.length

/-- The declarations of the host variables in place of the line. -/
def hostVars : Emitter where
  name := "HOSTVARS"
  summary := "Host variable declarations: |level|"
  replacesLine := true
  maxParams := some 1
  placeholder c ps := indented c.column [level ps ++ "  " ++ record ++ "  PIC X(256)."]
  text c ps fs :=
    indented c.column (declarations (level ps) (fs.map fun f => (f.cobolName, f.picture)))

/-- The declarations of the null indicators in place of the line. -/
def nullIndicators : Emitter where
  name := "NULLINDS"
  summary := "Null indicator declarations: |level|"
  replacesLine := true
  maxParams := some 1
  placeholder c ps := indented c.column [level ps ++ "  HOST-NULL-IND  PIC S9(4) COMP."]
  text c ps fs :=
    indented c.column
      (declarations (level ps) (fs.map fun f => (f.cobolName ++ "-NI", "PIC S9(4) COMP")))

/-- Statements below one another. -/
def statements (indent : Nat) (text : Field → String) (fs : List Field) : String :=
  (Join.continued "").render indent (fun _ f => text f) fs

/-- Moves the initial values to the host variables. -/
def moveInitial : Emitter where
  name := "MOVEINIT"
  summary := "Initialize host variables: |qualifier|"
  maxParams := some 1
  placeholder _ ps := "INITIALIZE " ++ (param ps 0).getD record
  text c ps fs :=
    statements c.column (fun f => "MOVE " ++ f.initialValue ++ " TO " ++ ofRecord (param ps 0) f) fs

/-- Moves every field from one record to another. -/
def moveBetween : Emitter where
  name := "MOVETO"
  summary := "MOVE each field between records: |from|to|"
  maxParams := some 2
  placeholder _ ps := "MOVE " ++ (param ps 0).getD record ++ " TO " ++ (param ps 1).getD record
  text c ps fs :=
    statements c.column
      (fun f => "MOVE " ++ ofRecord (param ps 0) f ++ " TO " ++ ofRecord (param ps 1) f) fs

/-- Displays every field. -/
def display : Emitter where
  name := "DISPLAY"
  summary := "DISPLAY each field: |qualifier|"
  maxParams := some 1
  placeholder _ _ := "DISPLAY 'NO TABLE BOUND'"
  text c ps fs :=
    statements c.column
      (fun f => "DISPLAY '" ++ f.cobolName ++ ": ' " ++ ofRecord (param ps 0) f) fs

/-- The emitters of declarations and statements. -/
def storageEmitters : List Emitter :=
  [fieldCount, hostVars, nullIndicators, moveInitial, moveBetween, display]

/-- The triggers that only COBOL has, and those it renders in its own way. -/
def triggers : List Trigger :=
  [comment, header] ++ (sqlEmitters ++ storageEmitters).map Emitter.trigger

end Stencil.Cobol
