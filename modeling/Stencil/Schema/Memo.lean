import Stencil.Dict
import Stencil.Schema.Provider

/-!
# The schema memo

A run asks its provider once for the fields and once for the key fields of a table. The answers,
failures among them, are kept under the table's name in upper case.
-/

namespace Stencil

/-- The answer to a look-up. -/
abbrev Lookup := Except SchemaError (List Field)

/-- The answers got so far. -/
structure Memo where
  fields : Dict Lookup
  keyFields : Dict Lookup

namespace Memo

/-- The memo before the first look-up. -/
def empty : Memo := ⟨.empty, .empty⟩

/-- The answer under `key`, from the dictionary or else from `ask`, and the dictionary that
holds it. -/
def consult (d : Dict Lookup) (key : String) (ask : Lookup) : Lookup × Dict Lookup :=
  match d.find? key with
  | some a => (a, d)
  | none => (ask, d.insert key ask)

/-- The fields, or with `keysOnly` the key fields, of a table. -/
def lookup (m : Memo) (p : Provider) (table : String) (keysOnly : Bool) : Lookup × Memo :=
  if keysOnly then
    let r := consult m.keyFields (Text.upper table) (p.keyFields table)
    (r.1, { m with keyFields := r.2 })
  else
    let r := consult m.fields (Text.upper table) (p.fields table)
    (r.1, { m with fields := r.2 })

/-- The number of tables whose fields were asked for. -/
def size (m : Memo) : Nat := m.fields.size

end Memo

end Stencil
