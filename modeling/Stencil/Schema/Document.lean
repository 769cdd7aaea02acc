import Stencil.Schema.Provider
import Stencil.Yaml.Decode

/-!
# Schema documents

A schema document lists tables under `tables`, each with a name, an index and fields.
-/

namespace Stencil

open Yaml

/-- The field of a node. -/
def Field.ofNode (n : Node) : Decoder Field := do
  let es ← n.entries
  let column ← Entries.required es "column" Node.text
  let declaredName ← Entries.optional es "cobol_name" none (Node.option Node.text)
  let type ← Entries.optional es "type" .char (Node.named DataType.ofName?)
  let length ← Entries.optional es "length" 0 (Node.natural maxHalf)
  let decimals ← Entries.optional es "decimals" 0 (Node.natural maxHalf)
  let isKey ← Entries.optional es "key" false Node.bool
  pure { column, declaredName, type, length, decimals, isKey }

/-- The table of a node. -/
def Table.ofNode (n : Node) : Decoder Table := do
  let es ← n.entries
  let name ← Entries.required es "name" Node.text
  let index ← Entries.optional es "index" 0 (Node.natural maxWord)
  let fields ← Entries.optional es "fields" [] (Node.list Field.ofNode)
  pure { name, index, fields }

/-- The tables of a node. -/
def Table.listOfNode (n : Node) : Decoder (List Table) := do
  Entries.optional (← n.entries) "tables" [] (Node.list Table.ofNode)

/-- The tables of a schema document that was read from `path`. -/
def Table.listOfDocument (path text : String) : Except SchemaError (List Table) :=
  match decode? text Table.listOfNode with
  | some ts => .ok ts
  | none => .error (.load path malformed)

end Stencil
