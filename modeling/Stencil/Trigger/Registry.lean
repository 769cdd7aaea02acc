import Stencil.Text.Quoted
import Stencil.Trigger.Action

/-!
# Triggers and registries

A trigger is a named macro. It is kept in a registry under its key, the trimmed name in upper
case, so that names are looked up without regard to ASCII case and a later trigger replaces an
earlier one of the same key.
-/

namespace Stencil

/-- A named macro. -/
structure Trigger where
  name : String
  summary : String := ""
  /-- Whether the value is the whole output of the line rather than the text for the token. -/
  replacesLine : Bool := false
  /-- How many parameters of a pipe call are consumed at most. -/
  maxParams : Option Nat := none
  /-- The value for the given parameters; `none` stands for no text. -/
  resolve : List String → Action (Option String)

/-- Triggers by key. -/
structure Registry where
  label : String
  triggers : Dict Trigger

namespace Registry

/-- The registry without a trigger. -/
def empty (label : String) : Registry := ⟨label, .empty⟩

/-- The trigger of a name. -/
def find? (r : Registry) (name : String) : Option Trigger :=
  r.triggers.find? (Text.triggerKey name)

/-- Whether there is a trigger of a name. -/
def contains (r : Registry) (name : String) : Bool := (r.find? name).isSome

/-- The registry with a further trigger. -/
def register (r : Registry) (t : Trigger) : Registry :=
  { r with triggers := r.triggers.insert (Text.triggerKey t.name) t }

/-- The trigger whose place a further one takes, and the registry with that one. -/
def exchange (r : Registry) (t : Trigger) : Option Trigger × Registry :=
  (r.find? t.name, r.register t)

/-- The registry with several further triggers, in order. -/
def registerAll (r : Registry) (ts : List Trigger) : Registry := ts.foldl register r

/-- The keys, sorted. -/
def names (r : Registry) : List String := r.triggers.keys

/-- The triggers, sorted by key. -/
def all (r : Registry) : List Trigger := r.triggers.values

/-- The label and the names in one line. -/
def describe (r : Registry) : String :=
  "TriggerRegistry \x7b label: " ++ Text.quoted r.label ++ ", triggers: [" ++
    ", ".intercalate (r.names.map Text.quoted) ++ "] \x7d"

/-- The number of triggers. -/
def size (r : Registry) : Nat := r.triggers.size

end Registry

end Stencil
