import Stencil.Emit.Fields
import Stencil.Release

/-!
# COBOL comments

A comment line of the fixed format has a `*` in column 7.
-/

namespace Stencil.Cobol

/-- What every comment line starts with. -/
def commentStart : String := "      *"

/-- A comment line. -/
def commentLine (text : String) : String :=
  if text = "" then commentStart else commentStart ++ " " ++ text

/-- The rule above and below a header. -/
def rule : String :=
  commentStart ++ "================================================================*"

/-- Lines indented by `indent` spaces, one below the other. -/
def indented (indent : Nat) (lines : List String) : String :=
  "\n".intercalate (lines.map (Text.spaces indent ++ ·))

/-- A comment in place of the line. -/
def comment : Trigger where
  name := "CMNT"
  summary := "Comment line: |text|"
  replacesLine := true
  resolve ps := pure (some (commentLine (Text.trimEnd (" ".intercalate ps))))

/-- The lines of a program header. -/
def headerLines (c : Context) : List String :=
  [rule,
   commentLine ("PROGRAM   : " ++ c.business.programName),
   commentLine ("LINE      : " ++ Text.padTo 8 c.business.insuranceLine ++ "PROCESS: " ++
     c.business.processType)] ++
  c.tableName.toList.map (fun t => commentLine ("TABLE     : " ++ t)) ++
  [commentLine ("GENERATED : " ++ c.startedAt.dateText "-" ++ " " ++ c.startedAt.minuteText ++
     " BY RATEGEN " ++ release),
   rule]

/-- A program header in place of the line. -/
def header : Trigger where
  name := "HDR"
  summary := "Program header comment block"
  replacesLine := true
  maxParams := some 0
  resolve _ := do
    let c ← Action.getContext
    pure (some ("\n".intercalate (headerLines c)))

end Stencil.Cobol
