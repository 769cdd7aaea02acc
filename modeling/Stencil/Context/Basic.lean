import Stencil.Clock
import Stencil.Dict
import Stencil.Schema.Provider

/-!
# Contexts

Every template being processed has a context: the business values, the bound table and the
scratch slots which its triggers read and change, and where the processing stands. Triggers
change a context only through a `Change`.
-/

namespace Stencil

/-- The values that identify the program being generated. -/
structure Business where
  insuranceLine : String
  processType : String
  programName : String
  /-- What the conditional directives compare with. -/
  linkage : String
deriving DecidableEq, Repr

/-- A table bound to a context. -/
structure Binding where
  table : String
  index : Nat
  /-- The fields given by the caller; without them they come from the schema. -/
  fields : Option (List Field) := none
deriving DecidableEq, Repr

/-- The binding of a table by name, with the index that a listing has for the name, or 0. -/
def Binding.ofListing (listing : List (String × Nat)) (table : String) : Binding where
  table
  index :=
    match listing.find? fun t => decide (Text.SameName t.1 table) with
    | some t => t.2
    | none => 0

/-- The state of one template being processed. -/
structure Context where
  id : Nat
  /-- The context of the template that called this one. -/
  parent : Option Nat
  /-- The number of callers up to the root. -/
  depth : Nat
  template : String
  isMain : Bool
  /-- The name of the output. -/
  output : String
  business : Business
  table : Option Binding
  slots : Dict String
  /-- The line being processed, counted from 1. -/
  line : Nat
  /-- The token being resolved. -/
  token : Option String
  /-- The column where that token starts. -/
  column : Nat
  startedAt : Moment
deriving DecidableEq, Repr

/-- A change that a trigger may make to a context. -/
inductive Change where
  | linkage (value : String)
  | programName (value : String)
  | bind (table : Binding)
  | unbind
  | slot (name value : String)
deriving DecidableEq, Repr

namespace Context

/-- The context after a change. Slot names are kept in upper case. -/
def apply (c : Context) : Change → Context
  | .linkage v => { c with business := { c.business with linkage := v } }
  | .programName v => { c with business := { c.business with programName := v } }
  | .bind t => { c with table := some t }
  | .unbind => { c with table := none }
  | .slot n v => { c with slots := c.slots.insert (Text.upper n) v }

/-- The context after several changes in order. -/
def applyAll (c : Context) (changes : List Change) : Context :=
  changes.foldl apply c

/-- The name of the bound table. -/
def tableName (c : Context) : Option String := c.table.map (·.table)

/-- The value of a scratch slot. -/
def slot? (c : Context) (name : String) : Option String :=
  c.slots.find? (Text.upper name)

end Context

end Stencil
