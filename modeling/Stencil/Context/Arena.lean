import Stencil.Context.Basic

/-!
# The context arena

The contexts of a run form a stack with the root at the bottom. A context is named by its place.
Spawning puts a child of any live context on top; releasing a context takes it and all above it
away, and the root is never released.
-/

namespace Stencil

/-- The live contexts of a run. -/
structure Arena where
  root : Context
  /-- The contexts above the root, lowest first. -/
  above : List Context
deriving DecidableEq, Repr

namespace Arena

/-- All live contexts, the root first. -/
def contexts (a : Arena) : List Context := a.root :: a.above

/-- The number of live contexts. -/
def size (a : Arena) : Nat := a.above.length + 1

/-- The context at a place. -/
def get? (a : Arena) (id : Nat) : Option Context := a.contexts[id]?

/-- The context at a place, and the root at a place that is not live. -/
def get (a : Arena) (id : Nat) : Context := (a.get? id).getD a.root

/-- The arena with the context at a place changed by `f`. -/
def modify (a : Arena) (id : Nat) (f : Context → Context) : Arena :=
  match id with
  | 0 => { a with root := f a.root }
  | n + 1 => { a with above := a.above.modify n f }

/-- The arena of a top-level context. -/
def ofRoot (template output : String) (business : Business) (isMain : Bool)
    (startedAt : Moment) : Arena where
  root :=
    { id := 0, parent := none, depth := 0, template, isMain, output, business, table := none,
      slots := .empty, line := 0, token := none, column := 0, startedAt }
  above := []

/-- The child that the context `parent` gets for a template: business values, table and slots
of the parent, or for a main template the business values of the root and neither table nor
slots. -/
def childOf (a : Arena) (parent : Nat) (template : String) (isMain : Bool) : Context :=
  let p := a.get parent
  { id := a.size, parent := some parent, depth := p.depth + 1, template, isMain,
    output := p.output
    business := if isMain then a.root.business else p.business
    table := if isMain then none else p.table
    slots := if isMain then .empty else p.slots
    line := 0, token := none, column := 0, startedAt := p.startedAt }

/-- The arena with a context on top. -/
def push (a : Arena) (c : Context) : Arena := { a with above := a.above ++ [c] }

/-- The arena with a child of `parent` on top; the child's place is the arena's former size. -/
def spawn (a : Arena) (parent : Nat) (template : String) (isMain : Bool) : Arena :=
  a.push (a.childOf parent template isMain)

/-- The arena without the context at a place and those above it. -/
def release (a : Arena) (id : Nat) : Arena :=
  match id with
  | 0 => a
  | n + 1 => { a with above := a.above.take n }

/-- The contexts from a place up to the root, by way of the parents. At most `steps` are
visited. -/
def chain (a : Arena) : (steps : Nat) → Nat → List Context
  | 0, _ => []
  | steps + 1, id =>
    match a.get? id with
    | none => []
    | some c =>
      match c.parent with
      | none => [c]
      | some p => c :: chain a steps p

/-- The context at a place followed by its callers up to the root. -/
def ancestry (a : Arena) (id : Nat) : List Context := a.chain a.size id

end Arena

end Stencil
