/-!
# Outcomes

What a command leaves: the lines on the two output channels and the exit code.
-/

namespace Stencil.CommandLine

/-- What a command leaves. -/
structure Outcome where
  code : Nat := 0
  /-- The lines of the output. -/
  output : List String := []
  /-- The lines of complaint. -/
  complaints : List String := []
deriving DecidableEq, Repr

namespace Outcome

/-- The outcome of a command that ends with an error. -/
def failure (message : String) : Outcome where
  code := 1
  complaints := ["Error: " ++ message]

/-- The exit code for something that may be in order or not. -/
def codeOf (good : Bool) : Nat := if good then 0 else 1

/-- The text of lines, each with a line feed at its end. -/
def textOf (lines : List String) : String := String.join (lines.map (· ++ "\n"))

end Outcome

end Stencil.CommandLine
