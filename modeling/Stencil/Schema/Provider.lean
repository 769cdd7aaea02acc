import Stencil.Error
import Stencil.Schema.Field

/-!
# Schemas

A `Schema` is an ordered list of tables in which no two names agree up to ASCII case: inserting
a table replaces the one of the same name and keeps its place. The engine asks for metadata
through a `Provider`, which may also keep its key fields apart from the field list.
-/

namespace Stencil

/-- A table with its fields in order. -/
structure Table where
  name : String
  /-- The table's place in the rating algorithm's list. -/
  index : Nat := 0
  fields : List Field := []
deriving DecidableEq, Repr

/-- Where the engine finds the metadata of tables. -/
structure Provider where
  /-- The fields of a table, in order. -/
  fields : String → Except SchemaError (List Field)
  /-- The key fields of a table, in order. -/
  keyFields : String → Except SchemaError (List Field)
  /-- The names and indices of all tables, in schema order. -/
  tables : Except SchemaError (List (String × Nat))

namespace Provider

/-- The provider that knows no table. -/
def absent : Provider where
  fields _ := .error .unavailable
  keyFields _ := .error .unavailable
  tables := .ok []

/-- The tables that can be listed; none when the listing fails. -/
def listing (p : Provider) : List (String × Nat) :=
  match p.tables with
  | .ok ts => ts
  | .error _ => []

end Provider

/-- Tables in order. -/
structure Schema where
  tables : List Table
deriving DecidableEq, Repr

namespace Schema

open Text

/-- The schema without a table. -/
def empty : Schema := ⟨[]⟩

/-- The tables with `t` in the place of the first one of its name, or at the end. -/
def insertTable (t : Table) : List Table → List Table
  | [] => [t]
  | u :: us => if SameName u.name t.name then t :: us else u :: insertTable t us

/-- The schema with the table `t`, in place of one of the same name. -/
def insert (s : Schema) (t : Table) : Schema :=
  ⟨insertTable t s.tables⟩

/-- The table of a name. -/
def find? (s : Schema) (name : String) : Option Table :=
  s.tables.find? fun t => decide (SameName t.name name)

/-- The schema of a list of tables, of which the last one of a name counts. -/
def ofTables (ts : List Table) : Schema :=
  ts.foldl insert empty

/-- The names and indices of the tables. -/
def listing (s : Schema) : List (String × Nat) :=
  s.tables.map fun t => (t.name, t.index)

/-- The fields of a table. -/
def fields (s : Schema) (name : String) : Except SchemaError (List Field) :=
  match s.find? name with
  | some t => .ok t.fields
  | none => .error (.unknownTable name)

/-- The schema as a provider; the key fields are those marked as such. -/
def provider (s : Schema) : Provider where
  fields := s.fields
  keyFields name := (s.fields name).map (·.filter (·.isKey))
  tables := .ok s.listing

end Schema

end Stencil
