import Stencil.CommandLine.Arguments
import Stencil.CommandLine.Encode
import Stencil.CommandLine.Outcome
import Stencil.CommandLine.Shape
import Stencil.CommandLine.Usage

/-!
# Commands

A command works on the disk by its arguments; relative paths start from the disk's own directory.
`run` finds the command by its name and makes an outcome of an error.
-/

namespace Stencil.CommandLine

/-- An argument that has to be there. -/
def needed {α : Type} (complaint : String) : Option α → Except Error α
  | some a => .ok a
  | none => .error (.other complaint)

/-- A value as JSON, over several lines. -/
def jsonOutput (j : Json) : List String := j.lines

/-! ## Single templates -/

/-- The metadata of tables that a schema file gives. -/
def provider (d : Disk) : Option Path → Except Error Provider
  | none => .ok .absent
  | some p =>
    match d.tables p with
    | .ok ts => .ok (Schema.ofTables ts).provider
    | .error cause => .error (.schema cause)

/-- What is told of a run. -/
def reportLines (output : Path) (r : Report) : List String :=
  ["Generated " ++ output ++ " (" ++ toString r.linesWritten ++ " lines, " ++
    toString r.subTemplates ++ " sub-templates)"] ++
  r.unknownTriggers.map (fun u =>
    "  unknown trigger " ++ u.text ++ " at " ++ u.template ++ ":" ++ toString u.line) ++
  r.runawayLines.map (fun u =>
    "  expansion did not settle at " ++ u.template ++ ":" ++ toString u.line) ++
  (if 0 < r.schemaFallbacks then
    ["  " ++ toString r.schemaFallbacks ++ " schema lookups fell back to placeholders"]
  else [])

/-- The request of a generation, given the paths of the template and the output. -/
def request (args : List String) (template output lob process : String) :
    Except Error Request := do
  let name ← needed ("Invalid template path: " ++ template) (Path.fileName template)
  pure
    { template := name
      output := output
      insuranceLine := lob
      processType := process
      isMain := !hasFlag "--sub" args
      programName := flagValue? "--program" args
      linkage := flagValue? "--prefix" args
      table := flagValue? "--table" args }

/-- Runs one template into an output file. -/
def generate (now : Moment) (args : List String) : Work Outcome := do
  match positional args with
  | template :: output :: _ =>
    let lob ← .ofExcept (needed "Missing --lob <insurance line>" (flagValue? "--lob" args))
    let process ← .ofExcept (needed "Missing --proc <process type>" (flagValue? "--proc" args))
    let backend ← .ofExcept (backend args)
    let limits ← .ofExcept (limits args)
    let schema ← .query fun d => provider d (flagValue? "--schema" args)
    let q ← .ofExcept (request args template output lob process)
    let shop : Workshop :=
      { registry := backend.registry, schema, limits, templateDir := Path.directory template }
    let report ← shop.generate q now
    pure
      { output :=
          if hasFlag "--json" args then jsonOutput report.toJson
          else reportLines output report }
  | _ =>
    throw (.other
      "Usage: rategen generate <template> <output> --lob <code> --proc <tag> [options]")

/-- What is told of a checked template. -/
def checkLines (r : CheckReport) : List String :=
  r.unknown.map (fun f =>
    r.template ++ ":" ++ toString f.line ++ ":" ++ toString f.column ++ ": unknown " ++
      r.backend ++ " trigger " ++ f.name ++ " (" ++ f.token ++ ")") ++
  (if r.isClean then
    ["✓ " ++ r.template ++ " (" ++ toString r.tokens ++ " macros on " ++
      toString r.macroLines ++ " lines)"]
  else [])

/-- The check of a template file. -/
def checkFile (registry : Registry) (d : Disk) (p : Path) : Except Error CheckReport :=
  match d.source p with
  | .error cause => .error (.templateNotFound p cause)
  | .ok s => (checkTemplate p registry s).mapError .io

/-- Lists the macros of templates that a backend does not know. -/
def check (args : List String) : Work Outcome := do
  if (positional args).isEmpty then
    throw (.other "Usage: rategen check <template>... [--backend cobol|java] [--json]")
  let backend ← .ofExcept (backend args)
  let reports ← .query fun d => (positional args).mapM (checkFile backend.registry d)
  pure
    { code := Outcome.codeOf (reports.all (·.isClean))
      output :=
        if hasFlag "--json" args then jsonOutput (.array (reports.map CheckReport.toJson))
        else reports.flatMap checkLines }

/-- Lists the triggers of a backend. -/
def triggers (args : List String) : Work Outcome := do
  let backend ← .ofExcept (backend args)
  let ts := backend.registry.all
  pure
    { output :=
        if hasFlag "--json" args then jsonOutput (.array (ts.map Trigger.toJson))
        else
          [backend.registry.label ++ " triggers (" ++ toString ts.length ++ "):", ""] ++
          ts.map fun t =>
            "  " ++ Text.padTo 10 t.name ++ " " ++
              (if t.replacesLine then "line " else "token") ++ "  " ++ t.summary }

/-! ## Projects -/

/-- The project that the disk's own directory lies in. -/
def currentProject : Work Project :=
  .query fun d => Project.discover d d.here.path

/-- What is told of a job that was regenerated. -/
def outcomeLine : JobOutcome → String
  | .generated output reason report =>
    "  ✓ " ++ output ++ " (" ++ reason.describe ++ ", " ++ toString report.linesWritten ++
      " lines)"
  | .skipped output => "  - " ++ output ++ " (up to date)"
  | .failed output cause => "  ✗ " ++ output ++ ": " ++ cause.message

/-- Runs the stale jobs of the current project. -/
def regen (now : Moment) (args : List String) : Work Outcome := do
  let project ← currentProject
  let outcomes ← project.regen (hasFlag "--force" args) now
  let count (p : JobOutcome → Bool) : String := toString (outcomes.countP p)
  pure
    { code := Outcome.codeOf (!outcomes.any (·.isFailed))
      output :=
        if hasFlag "--json" args then
          jsonOutput (.object [("outcomes", .array (outcomes.map JobOutcome.toJson))])
        else
          outcomes.map outcomeLine ++
          ["", project.file.name ++ ": " ++ count (·.isGenerated) ++ " generated, " ++
            count (·.isSkipped) ++ " skipped, " ++ count (·.isFailed) ++ " failed"] }

/-- What is told of the outputs of a project. -/
def statusLines (p : Project) (statuses : List JobStatus) : List String :=
  let stale := statuses.filter (·.staleness.isStale)
  ["rategen project " ++ p.file.name, "", "Root: " ++ p.root,
   "Jobs: " ++ toString statuses.length] ++
  stale.map (fun s =>
    "  " ++ s.output ++ " <- " ++ s.template ++ " [" ++ s.backend.name ++ "]: " ++
      s.staleness.describe) ++
  ["",
   if stale.isEmpty then "✓ All outputs up to date"
   else
    "⚠ " ++ toString stale.length ++ " output(s) need regeneration (run 'rategen regen')"] ++
  (if p.file.validate.isEmpty then []
  else ["", "⚠ Configuration issues:"] ++ p.file.validate.map ("  " ++ ·))

/-- Tells which outputs of the current project are stale. -/
def status (args : List String) : Work Outcome := do
  let project ← currentProject
  let statuses ← .query project.status
  pure
    { output :=
        if hasFlag "--json" args then jsonOutput (.array (statuses.map JobStatus.toJson))
        else statusLines project statuses }

/-! ## Shapes of files -/

/-- Prints the shape of a file. -/
def shape (args : List String) : Work Outcome :=
  match args.head?.getD "list" with
  | "list" =>
    pure
      { output :=
          ["Available schemas: project (.rategen.yaml), schema (table metadata), meta"] }
  | "project" => pure { output := jsonOutput Shape.project }
  | "schema" => pure { output := jsonOutput Shape.schema }
  | "meta" => pure { output := jsonOutput Shape.ledger }
  | other => throw (.other ("Unknown schema: " ++ other))

/-! ## Command lines -/

/-- What a task leaves. -/
def settled (t : Work Outcome) (d : Disk) : Outcome × Disk :=
  match t d with
  | (.ok outcome, after) => (outcome, after)
  | (.error e, after) => (.failure e.message, after)

/-- Runs a command line at a moment. -/
def run (now : Moment) (args : List String) (d : Disk) : Outcome × Disk :=
  match args with
  | [] => ({ code := 1, output := usage }, d)
  | name :: rest =>
    match name with
    | "generate" | "gen" => settled (generate now rest) d
    | "check" => settled (check rest) d
    | "triggers" => settled (triggers rest) d
    | "regen" => settled (regen now rest) d
    | "status" => settled (status rest) d
    | "schema" => settled (shape rest) d
    | "version" | "--version" | "-V" => ({ output := ["rategen " ++ release] }, d)
    | "help" | "--help" | "-h" => ({ output := usage }, d)
    | _ =>
      ({ code := 1
         output := usage
         complaints := ["Unknown command: " ++ name, "Error: Unknown command"] }, d)

end Stencil.CommandLine
