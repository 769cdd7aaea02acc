import Stencil.Emit.Cobol.Storage
import Stencil.Emit.Java
import Stencil.Emit.Shared

/-!
# Backends

A backend is a target language with its registry: the shared triggers, and on top of them the
language's own.
-/

namespace Stencil

/-- The target languages. -/
inductive Backend where
  | cobol
  | java
deriving DecidableEq, Repr

namespace Backend

/-- The name of a backend. -/
def name : Backend → String
  | cobol => "cobol"
  | java => "java"

/-- The backend of a written name. -/
def ofName? (s : String) : Option Backend :=
  if s = "cobol" then some cobol else if s = "java" then some java else none

/-- The backend that a user means, in any letter case. -/
def parse? (s : String) : Option Backend :=
  let l := Text.fullLower s
  if l = "cobol" ∨ l = "cbl" ∨ l = "cob" then some cobol
  else if l = "java" then some java
  else none

/-- The usual extension of generated files. -/
def extension : Backend → String
  | cobol => "cbl"
  | java => "java"

/-- The triggers of a backend. -/
def registry : Backend → Registry
  | cobol => ((Registry.empty "cobol").registerAll Shared.triggers).registerAll Cobol.triggers
  | java => ((Registry.empty "java").registerAll Shared.triggers).registerAll Java.triggers

/-- All backends. -/
def all : List Backend := [cobol, java]

end Backend

end Stencil
