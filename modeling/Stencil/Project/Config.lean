import Stencil.Backend
import Stencil.Run.Engine
import Stencil.Yaml.Held

/-!
# Project files

A project file has defaults and a list of jobs. `ProjectFile.merge` completes a job with the
defaults and resolves its paths against the project's root. `ProjectFile.validate` lists what
would make jobs fail or collide.
-/

namespace Stencil

open Yaml

/-- The name of a project file. -/
def projectFileName : String := ".rategen.yaml"

/-- The settings that apply to every job unless it has its own. -/
structure Defaults where
  backend : Backend := .cobol
  /-- Where templates are. -/
  templateDir : Path := "templates"
  /-- Where the schema is, if there is one. -/
  schema : Option Path := none
  /-- Where relative outputs go. -/
  outputDir : Path := "generated"
  linkage : String := ""
  limits : Limits := {}
deriving DecidableEq, Repr

/-- A generation job. -/
structure Job where
  template : String
  output : Path
  insuranceLine : String
  processType : String
  table : Option String := none
  programName : Option String := none
  isMain : Option Bool := none
  backend : Option Backend := none
  linkage : Option String := none
deriving DecidableEq, Repr

/-- A project file. -/
structure ProjectFile where
  version : Nat
  name : String
  defaults : Defaults
  jobs : List Job
deriving DecidableEq, Repr

/-! ## Reading -/

namespace UnknownPolicy

/-- The name of a policy. -/
def name : UnknownPolicy → String
  | keep => "keep"
  | remove => "remove"

/-- All policies. -/
def all : List UnknownPolicy := [keep, remove]

/-- The policy of a held value. -/
def ofHeld? (h : Held) : Option UnknownPolicy :=
  (h.constant? (all.map name)).bind (all[·]?)

end UnknownPolicy

namespace Defaults

/-- The keys that are read before the limits. -/
def ownKeys : List String :=
  ["backend", "template_dir", "schema", "output_dir", "linkage_prefix"]

/-- The limits among held values by key; each key may be there once. -/
def limitsOf? (held : List (String × Held)) : Option Limits := do
  let once {α : Type} (key : String) (default : α) (read : Held → Option α) : Option α :=
    match held.filter fun e => e.1 == key with
    | [] => some default
    | [e] => read e.2
    | _ => none
  let maxIterations ← once "max_iterations" 10 Held.natural?
  let maxDepth ← once "max_depth" 16 Held.natural?
  let unknown ← once "unknown_triggers" .keep UnknownPolicy.ofHeld?
  pure { maxIterations, maxDepth, unknown }

/-- The defaults of a node. The limits stand beside the other settings, and whatever stands there
is held first. The node itself and the document around it are collections already. -/
def ofNode (n : Node) : Decoder Defaults := do
  let es ← n.entries
  let backend ← Entries.optional es "backend" .cobol (Node.named Backend.ofName?)
  let templateDir ← Entries.optional es "template_dir" "templates" Node.text
  let schema ← Entries.optional es "schema" none (Node.option Node.text)
  let outputDir ← Entries.optional es "output_dir" "generated" Node.text
  let linkage ← Entries.optional es "linkage_prefix" "" Node.text
  let held ← (es.filter fun e => !ownKeys.contains e.1).mapM fun e => do
    pure (e.1, ← e.2.held (depthLimit - 2))
  let limits ← .ofOption (limitsOf? held)
  pure { backend, templateDir, schema, outputDir, linkage, limits }

end Defaults

/-- The job of a node. -/
def Job.ofNode (n : Node) : Decoder Job := do
  let es ← n.entries
  let template ← Entries.required es "template" Node.text
  let output ← Entries.required es "output" Node.text
  let insuranceLine ← Entries.required es "insurance_line" Node.text
  let processType ← Entries.required es "process_type" Node.text
  let table ← Entries.optional es "table" none (Node.option Node.text)
  let programName ← Entries.optional es "program_name" none (Node.option Node.text)
  let isMain ← Entries.optional es "main" none (Node.option Node.bool)
  let backend ← Entries.optional es "backend" none (Node.option (Node.named Backend.ofName?))
  let linkage ← Entries.optional es "linkage_prefix" none (Node.option Node.text)
  pure
    { template, output, insuranceLine, processType, table, programName, isMain, backend,
      linkage }

namespace ProjectFile

/-- The project file of a node. -/
def ofNode (n : Node) : Decoder ProjectFile := do
  let es ← n.entries
  let version ← Entries.required es "version" (Node.natural maxHalf)
  let name ← Entries.required es "project" fun n => do
    Entries.required (← n.entries) "name" Node.text
  let defaults ← Entries.optional es "defaults" {} Defaults.ofNode
  let jobs ← Entries.optional es "jobs" [] (Node.list Job.ofNode)
  pure { version, name, defaults, jobs }

/-- The project file of a text. Only version 1 is known. -/
def ofYaml (text : String) : Except Error ProjectFile :=
  match decode? text ofNode with
  | none =>
    .error (.config ("Failed to parse " ++ projectFileName ++ ": " ++ malformed))
  | some f =>
    if f.version = 1 then .ok f
    else
      .error (.config
        ("Unsupported " ++ projectFileName ++ " version: " ++ toString f.version))

end ProjectFile

/-! ## Merging -/

/-- A job completed with the defaults, its paths resolved. -/
structure MergedJob where
  request : Request
  backend : Backend
  templateDir : Path
  templatePath : Path
  schema : Option Path
  limits : Limits
deriving DecidableEq, Repr

namespace ProjectFile

/-- The backend of a job. -/
def backendOf (f : ProjectFile) (j : Job) : Backend := j.backend.getD f.defaults.backend

/-- Where a job's output goes. -/
def outputOf (f : ProjectFile) (root : Path) (j : Job) : Path :=
  if j.output.isAbsolute then j.output
  else Path.join (Path.join root f.defaults.outputDir) j.output

/-- A job completed with the defaults, its paths resolved against `root`. -/
def merge (f : ProjectFile) (root : Path) (j : Job) : MergedJob where
  request :=
    { template := j.template
      output := f.outputOf root j
      insuranceLine := j.insuranceLine
      processType := j.processType
      isMain := j.isMain.getD true
      programName := j.programName
      linkage := some (j.linkage.getD f.defaults.linkage)
      table := j.table }
  backend := f.backendOf j
  templateDir := Path.join root f.defaults.templateDir
  templatePath := Path.join (Path.join root f.defaults.templateDir) j.template
  schema := f.defaults.schema.map (Path.join root)
  limits := f.defaults.limits

/-! ## Validation -/

/-- What is wrong with a job by itself. -/
def jobIssues (f : ProjectFile) (i : Nat) (j : Job) : List String :=
  let place := "jobs[" ++ toString i ++ "]: "
  (if Text.trim j.template = "" then [place ++ "template is empty"] else []) ++
  (match j.programName with
    | some n =>
      if f.backendOf j = .cobol && !Naming.isProgramName n then
        [place ++ "'" ++ n ++ "' is not a valid COBOL program name" ++
          " (1-8 letters/digits, starting with a letter)"]
      else []
    | none => [])

/-- Paths in order, equal ones in the order in which they came. -/
def sortPaths (ps : List Path) : List Path :=
  ps.mergeSort fun p q => !Path.compsBefore (Path.components q) (Path.components p)

/-- An issue for every path that names the same file as the one behind it. -/
def repeatedIssues : List Path → List String
  | p :: q :: ps =>
    (if Path.components p = Path.components q then
      ["output " ++ p ++ " is produced by more than one job"]
    else []) ++ repeatedIssues (q :: ps)
  | _ => []

/-- What would make jobs fail, collide or produce unusable programs. -/
def validate (f : ProjectFile) : List String :=
  (if f.defaults.limits.maxIterations = 0 then
    ["defaults.max_iterations must be at least 1"] else []) ++
  (f.jobs.mapIdx (f.jobIssues ·)).flatten ++
  repeatedIssues (sortPaths (f.jobs.map (·.output)))

end ProjectFile

end Stencil
