import Stencil.Backend
import Stencil.Clock
import Stencil.Dict
import Stencil.Path
import Stencil.Release
import Stencil.Yaml.Block
import Stencil.Yaml.Decode

/-!
# Ledgers

A ledger tells for every generated file what it was made from: the digests of the template, of the
sub-templates that the run opened and of the schema. It is kept as a document in the output
directory, written by `Ledger.text` and read by `Ledger.ofYaml`.
-/

namespace Stencil

open Yaml

/-- What one output was generated from. -/
structure OutputRecord where
  /-- The path of the template. -/
  template : Path
  templateDigest : String
  /-- The digests of the sub-templates by their paths. -/
  fragments : Dict String := .empty
  schemaDigest : Option String := none
  backend : Backend
  lines : Nat := 0
  generatedAt : Moment
deriving DecidableEq, Repr

/-- The records of a directory of outputs. -/
structure Ledger where
  /-- The records by the names that the outputs have within the directory. -/
  outputs : Dict OutputRecord := .empty
  /-- The version of the tool that wrote the last record. -/
  toolVersion : String := release
deriving DecidableEq, Repr

/-- The name of a ledger's file. -/
def ledgerFileName : String := ".rategen_meta.yaml"

/-! ## Reading -/

/-- A dictionary of a record with arbitrary keys, of which the last one of a name counts. -/
def Dict.ofNode {α : Type} (read : Node → Decoder α) (n : Node) : Decoder (Dict α) := do
  let es ← (← n.entries).mapM fun e => do pure (e.1, ← read e.2)
  pure (Dict.ofList es)

/-- A moment as a number of seconds, within the years that dates are kept for. -/
def Moment.ofNode (n : Node) : Decoder Moment := do
  let s ← n.integer
  if -8334601228800 ≤ s ∧ s ≤ 8210266876799 then pure ⟨s⟩ else .fail

/-- The record of a node. -/
def OutputRecord.ofNode (n : Node) : Decoder OutputRecord := do
  let es ← n.entries
  let template ← Entries.required es "template" Node.text
  let templateDigest ← Entries.required es "template_hash" Node.text
  let fragments ← Entries.optional es "includes" .empty (Dict.ofNode Node.text)
  let schemaDigest ← Entries.optional es "schema_hash" none (Node.option Node.text)
  let backend ← Entries.required es "backend" (Node.named Backend.ofName?)
  let lines ← Entries.optional es "lines" 0 (Node.natural maxWord)
  let generatedAt ← Entries.required es "generated_at" Moment.ofNode
  pure { template, templateDigest, fragments, schemaDigest, backend, lines, generatedAt }

namespace Ledger

/-- The ledger of a node. -/
def ofNode (n : Node) : Decoder Ledger := do
  let es ← n.entries
  let outputs ← Entries.optional es "outputs" .empty (Dict.ofNode OutputRecord.ofNode)
  let toolVersion ← Entries.required es "tool_version" Node.text
  pure { outputs, toolVersion }

/-- The ledger of a document. -/
def ofYaml (text : String) : Except Error Ledger :=
  match decode? text ofNode with
  | some l => .ok l
  | none => .error (.other ("Failed to parse " ++ ledgerFileName ++ ": " ++ malformed))

end Ledger

/-! ## Writing -/

/-- A dictionary as a record. -/
def Dict.toBlock {α : Type} (f : α → Block) (d : Dict α) : Block :=
  .record (d.entries.map fun e => (e.1, f e.2))

/-- The record as it is written. Sub-templates and a schema are left out where there are none. -/
def OutputRecord.toBlock (r : OutputRecord) : Block :=
  .record
    ([("template", .text r.template), ("template_hash", .text r.templateDigest)] ++
      (if r.fragments.entries.isEmpty then []
        else [("includes", r.fragments.toBlock .text)]) ++
      r.schemaDigest.toList.map (fun h => ("schema_hash", .text h)) ++
      [("backend", .text r.backend.name), ("lines", .integer r.lines),
       ("generated_at", .integer r.generatedAt.seconds)])

namespace Ledger

/-- What stands above the records in a ledger's file. -/
def preamble : String :=
  "# AUTO-GENERATED - DO NOT EDIT\n" ++
  "# Input hashes of generated sources, used by 'rategen regen'\n\n"

/-- The text of a ledger's file. -/
def text (l : Ledger) : String :=
  preamble ++ Block.document
    [("outputs", l.outputs.toBlock OutputRecord.toBlock), ("tool_version", .text l.toolVersion)]

end Ledger

end Stencil
