import Stencil.Context.Basic
import Stencil.Run.Report

/-!
# Actions

What a trigger does is a finite tree of requests to the run that calls it: it reads the run's
state, changes the current context, writes lines, has sub-templates processed, and ends with a
value or an error. Since a trigger has no other access to the run, whatever holds of every
action holds of every trigger.
-/

namespace Stencil

/-- A program over the state of a run. -/
inductive Action (α : Type) : Type where
  | done (value : α)
  | fail (message : String)
  /-- Reads the current context. -/
  | context (next : Context → Action α)
  /-- Reads the template names from the current context up to the root. -/
  | ancestry (next : List String → Action α)
  /-- Reads the number of live contexts. -/
  | live (next : Nat → Action α)
  | limits (next : Limits → Action α)
  | report (next : Report → Action α)
  /-- Reads the names and indices of the schema's tables. -/
  | tables (next : List (String × Nat) → Action α)
  /-- Reads the fields of the bound table, or its key fields; `none` when no table is bound or
  the look-up fails. -/
  | fields (keysOnly : Bool) (next : Option (List Field) → Action α)
  /-- Changes the current context. -/
  | change (c : Change) (next : Action α)
  /-- Writes one line of output. -/
  | write (line : String) (next : Action α)
  /-- Has a sub-template processed in a child context, to which `setup` is applied first. -/
  | call (template : String) (isMain : Bool) (setup : List Change) (next : Action α)

namespace Action

variable {α β : Type}

/-- The action `a` followed by what `f` makes of its value. -/
def bind (a : Action α) (f : α → Action β) : Action β :=
  match a with
  | done v => f v
  | fail m => fail m
  | context k => context fun x => (k x).bind f
  | ancestry k => ancestry fun x => (k x).bind f
  | live k => live fun x => (k x).bind f
  | limits k => limits fun x => (k x).bind f
  | report k => report fun x => (k x).bind f
  | tables k => tables fun x => (k x).bind f
  | fields b k => fields b fun x => (k x).bind f
  | change c k => change c (k.bind f)
  | write l k => write l (k.bind f)
  | call t m s k => call t m s (k.bind f)

instance : Monad Action where
  pure := done
  bind := bind

/-- The current context. -/
def getContext : Action Context := context done

/-- The fields of the bound table, or its key fields. -/
def getFields (keysOnly : Bool) : Action (Option (List Field)) := fields keysOnly done

/-- The names and indices of the schema's tables. -/
def getTables : Action (List (String × Nat)) := tables done

/-- Changes the current context. -/
def modify (c : Change) : Action Unit := change c (done ())

/-- Writes one line of output. -/
def writeLine (line : String) : Action Unit := write line (done ())

/-- Has a sub-template processed. -/
def callTemplate (template : String) (isMain : Bool) (setup : List Change) : Action Unit :=
  call template isMain setup (done ())

/-- The actions of the list members one after the other. -/
def forEach (xs : List α) (f : α → Action Unit) : Action Unit :=
  match xs with
  | [] => done ()
  | x :: xs => (f x).bind fun _ => forEach xs f

end Action

end Stencil
