import Stencil.Backend
import Stencil.Run.Report
import Stencil.Error
import Stencil.Yaml.Number

/-!
# Arguments

Flags may stand anywhere among the arguments of a command. The value of a flag is the argument
behind its first occurrence; positional arguments are those that are neither flags nor behind a
flag that takes a value.
-/

namespace Stencil.CommandLine

/-- The flags that take a value. -/
def valueFlags : List String :=
  ["--backend", "-b", "--lob", "--proc", "--table", "--schema", "--program", "--prefix",
   "--max-iterations", "--max-depth", "--unknown"]

/-- The argument behind the first occurrence of a flag. -/
def flagValue? (flag : String) : List String → Option String
  | [] => none
  | a :: as => if a = flag then as.head? else flagValue? flag as

/-- Whether a flag stands among the arguments. -/
def hasFlag (flag : String) (args : List String) : Bool := args.contains flag

/-- Whether an argument looks like a flag. -/
def isDashed (a : String) : Bool := a.toList.head? == some '-'

/-- The arguments that are neither flags nor values of flags. -/
def positional : List String → List String
  | [] => []
  | [a] => if valueFlags.contains a || isDashed a then [] else [a]
  | a :: b :: as =>
    if valueFlags.contains a then positional as
    else if isDashed a then positional (b :: as)
    else a :: positional (b :: as)

/-- The backend that is asked for, COBOL when none is. -/
def backend (args : List String) : Except Error Backend :=
  match (flagValue? "--backend" args).or (flagValue? "-b" args) with
  | none => .ok .cobol
  | some name =>
    match Backend.parse? name with
    | some b => .ok b
    | none => .error (.other ("Unknown backend: " ++ name ++ " (expected cobol or java)"))

/-- The number that digits spell, after a plus or not, within 64 bits. -/
def number? (s : String) : Option Nat :=
  (Yaml.digitsOf? 10 (Yaml.dropPlus s.toList)).filter (· ≤ Yaml.maxWord)

/-- The number behind a flag. -/
def numberValue? (flag : String) (args : List String) : Except Error (Option Nat) :=
  match flagValue? flag args with
  | none => .ok none
  | some v =>
    match number? v with
    | some n => .ok (some n)
    | none => .error (.other (flag ++ " expects a number, got '" ++ v ++ "'"))

/-- The policy for unknown macros behind its flag. -/
def policyValue (args : List String) : Except Error UnknownPolicy :=
  match flagValue? "--unknown" args with
  | none | some "keep" => .ok .keep
  | some "remove" => .ok .remove
  | some v => .error (.other ("--unknown expects keep or remove, got '" ++ v ++ "'"))

/-- The limits that the arguments set. -/
def limits (args : List String) : Except Error Limits := do
  let passes ← numberValue? "--max-iterations" args
  let depth ← numberValue? "--max-depth" args
  let unknown ← policyValue args
  pure
    { maxIterations := (passes.map (max · 1)).getD 10
      maxDepth := depth.getD 16
      unknown }

end Stencil.CommandLine
