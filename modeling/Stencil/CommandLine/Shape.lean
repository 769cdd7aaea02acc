import Stencil.Json
import Stencil.Project.Config

/-!
# Shapes of files

The shapes of project files, schema files and ledgers, described as JSON schemas.
-/

namespace Stencil.Shape

/-- The members of a description. -/
abbrev Members := List (String × Json)

/-- The dialect of the descriptions. -/
def dialect : String := "https" ++ "://" ++ "json-schema.org/draft/2020-12/schema"

/-- Members with an explanation in front. -/
def described (text : String) (ms : Members) : Members := ("description", .string text) :: ms

/-- A value of a kind. -/
def kind (name : String) : Members := [("type", .string name)]

/-- A value of a kind, or null. -/
def nullable (name : String) : Members := [("type", .strings [name, "null"])]

/-- Members with a default value behind them. -/
def withDefault (j : Json) (ms : Members) : Members := ms ++ [("default", j)]

/-- An integer of a format. -/
def integer (format : String) : Members := kind "integer" ++ [("format", .string format)]

/-- A natural number of a format. -/
def natural (format : String) : Members := integer format ++ [("minimum", .natural 0)]

/-- A natural number of a format with a default value. -/
def naturalOr (format : String) (n : Nat) : Members :=
  withDefault (.natural n) (integer format) ++ [("minimum", .natural 0)]

/-- A value that is described under a name. -/
def reference (name : String) : Members := [("$ref", .string ("#/$defs/" ++ name))]

/-- A list of values that are described under a name, empty by default. -/
def listOf (name : String) : Members :=
  withDefault (.array []) (kind "array") ++ [("items", .object (reference name))]

/-- An object whose members are all alike. -/
def dictionary (ms : Members) : Members :=
  kind "object" ++ [("additionalProperties", .object ms)]

/-- An object with the given members, some of which have to be there. -/
def record (fields : List (String × Members)) (required : List String) : Members :=
  kind "object" ++ [("properties", .object (fields.map fun f => (f.1, .object f.2)))] ++
    (if required.isEmpty then [] else [("required", .strings required)])

/-- One of some names. -/
def oneOf (names : List String) : Members := kind "string" ++ [("enum", .strings names)]

/-- A description as a whole, with the descriptions that it refers to. -/
def document (title explanation : String) (ms : Members) (parts : List (String × Members)) :
    Json :=
  .object
    ([("$schema", .string dialect), ("title", .string title)] ++ described explanation ms ++
      [("$defs", .object (parts.map fun p => (p.1, .object p.2)))])

/-! ## Project files -/

/-- The target languages. -/
def backends : Members :=
  described "Target language of generated source" (oneOf (Backend.all.map Backend.name))

/-- The policies for unknown macros. -/
def policies : Members :=
  let constant (text : String) (p : UnknownPolicy) : Json :=
    .object (described text (kind "string" ++ [("const", .string p.name)]))
  described "What happens to a token naming a trigger the backend does not know"
    [("oneOf", .array
      [constant "Leave the macro text in the output" .keep,
       constant "Delete the macro text" .remove])]

/-- Defaults as they are written. -/
def ofDefaults (d : Defaults) : Json :=
  .object
    [("backend", .string d.backend.name), ("linkage_prefix", .string d.linkage),
     ("max_depth", .natural d.limits.maxDepth),
     ("max_iterations", .natural d.limits.maxIterations), ("output_dir", .string d.outputDir),
     ("template_dir", .string d.templateDir),
     ("unknown_triggers", .string d.limits.unknown.name)]

/-- The defaults of a project. -/
def defaults (d : Defaults) : Members :=
  described "Settings applied to every job unless overridden" (record
    [("backend", withDefault (.string d.backend.name) (reference "Backend")),
     ("linkage_prefix", withDefault (.string d.linkage) (kind "string")),
     ("max_depth",
      described "Maximum sub-template nesting depth" (naturalOr "uint" d.limits.maxDepth)),
     ("max_iterations",
      described
        ("Resolution passes allowed per line before the line is written as-is.\n" ++
          "A safety valve against triggers that keep re-emitting macros.")
        (naturalOr "uint" d.limits.maxIterations)),
     ("output_dir",
      described "Directory relative outputs are written to"
        (withDefault (.string d.outputDir) (kind "string"))),
     ("schema", described "Schema file exported from the metadata store" (nullable "string")),
     ("template_dir",
      described "Directory templates are resolved against"
        (withDefault (.string d.templateDir) (kind "string"))),
     ("unknown_triggers",
      withDefault (.string d.limits.unknown.name) (reference "UnknownTriggerPolicy"))]
    [])

/-- A job of a project. -/
def job : Members :=
  described "One generation job" (record
    [("backend",
      [("anyOf", .array [.object (reference "Backend"), .object (kind "null")])]),
     ("insurance_line", kind "string"), ("linkage_prefix", nullable "string"),
     ("main", nullable "boolean"),
     ("output",
      described "Output file, relative to the output directory" (kind "string")),
     ("process_type", kind "string"),
     ("program_name",
      described "Defaults to the output file stem, upper-cased" (nullable "string")),
     ("table", nullable "string"),
     ("template",
      described "Template name, relative to the template directory" (kind "string"))]
    ["template", "output", "insurance_line", "process_type"])

/-- The shape of a project file. -/
def project : Json :=
  document "Rategen Project" "Template generation jobs"
    (record
      [("defaults", withDefault (ofDefaults {}) (reference "Defaults")),
       ("jobs", listOf "JobConfig"), ("project", reference "ProjectInfo"),
       ("version", described "Schema version for migrations" (natural "uint32"))]
      ["version", "project"])
    [("Backend", backends), ("Defaults", defaults {}), ("JobConfig", job),
     ("ProjectInfo", record [("name", kind "string")] ["name"]),
     ("UnknownTriggerPolicy", policies)]

/-! ## Schema files -/

/-- The column types. -/
def dataTypes : Members :=
  described "Column data types known to the generator" (oneOf
    ([.smallInt, .integer, .bigInt, .decimal, .float, .char, .varChar, .date, .time,
      .timestamp].map DataType.name))

/-- A column of a table. -/
def field : Members :=
  described "Metadata for one column of a table" (record
    [("cobol_name",
      described "Declared COBOL-safe name, if the metadata store has one" (nullable "string")),
     ("column", described "Raw database column name" (kind "string")),
     ("decimals", naturalOr "uint32" 0), ("key", withDefault (.bool false) (kind "boolean")),
     ("length", naturalOr "uint32" 0),
     ("type", withDefault (.string DataType.char.name) (reference "DataType"))]
    ["column"])

/-- A table with its columns. -/
def table : Members :=
  described "A table and its ordered fields" (record
    [("fields", listOf "FieldMeta"),
     ("index",
      described "Position of the table in the rating algorithm's table list"
        (naturalOr "uint" 0)),
     ("name", kind "string")]
    ["name"])

/-- The shape of a schema file. -/
def schema : Json :=
  document "Rategen Schema" "Table/field metadata for code generation"
    (record [("tables", listOf "TableMeta")] [])
    [("DataType", dataTypes), ("FieldMeta", field), ("TableMeta", table)]

/-! ## Ledgers -/

/-- The record of an output. -/
def outputRecord : Members :=
  described "What one output was generated from" (record
    [("backend", reference "Backend"), ("generated_at", integer "int64"),
     ("includes",
      described "Sub-template path -> hash, for `INCLUDE` and `EACHTABLE` fragments"
        (dictionary (kind "string"))),
     ("lines", described "Lines written" (naturalOr "uint" 0)),
     ("schema_hash", nullable "string"), ("template", kind "string"),
     ("template_hash", kind "string")]
    ["template", "template_hash", "backend", "generated_at"])

/-- The shape of a ledger. -/
def ledger : Json :=
  document "GenerationMeta" "Contents of `.rategen_meta.yaml`"
    (record
      [("outputs",
        withDefault (.object [])
          (described "Output path relative to the output directory -> record"
            (dictionary (reference "OutputRecord")))),
       ("tool_version", kind "string")]
      ["tool_version"])
    [("Backend", backends), ("OutputRecord", outputRecord)]

end Stencil.Shape
