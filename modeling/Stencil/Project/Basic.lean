import Stencil.Ledger.Freshness
import Stencil.Project.Config
import Stencil.Schema.Document

/-!
# Projects

A project is a directory with a project file. It is found from any directory below it. Its status
tells for every job how its output stands to the files that it is generated from.
-/

namespace Stencil

/-- The tables of a schema file. A name that no file can have is not told apart from a document
that cannot be read. -/
def Disk.tables (d : Disk) (p : Path) : Except SchemaError (List Table) :=
  match d.readText p with
  | .ok text => Table.listOfDocument p text
  | .error .impossibleName => .error (.load p Yaml.malformed)
  | .error cause => .error (.load p cause.message)

/-- A directory with its project file. -/
structure Project where
  root : Path
  file : ProjectFile
deriving DecidableEq, Repr

/-- How a job's output stands. -/
structure JobStatus where
  template : String
  output : Path
  backend : Backend
  staleness : Staleness
deriving DecidableEq, Repr

namespace Project

/-- The nearest directory at or above a path that has a project file. -/
def findRoot (d : Disk) (p : Path) : Except Error (Option Path) :=
  match d.resolve p with
  | .error cause => .error (.io cause)
  | .ok a =>
    .ok ((a.upward.find? fun b => d.isFileAt (b ++ [projectFileName])).map Place.path)

/-- The project file of a directory, if there is one. -/
def loadFile (d : Disk) (root : Path) : Except Error (Option ProjectFile) :=
  if d.exists? (root.join projectFileName) then
    match d.readText (root.join projectFileName) with
    | .ok text => (ProjectFile.ofYaml text).map some
    | .error cause => .error (.io cause)
  else .ok none

/-- The project of a directory. -/
def load (d : Disk) (root : Path) : Except Error Project := do
  match ← loadFile d root with
  | some file => pure { root, file }
  | none => throw (.config ("No " ++ projectFileName ++ " in " ++ root))

/-- The project that a path lies in. -/
def discover (d : Disk) (p : Path) : Except Error Project := do
  match ← findRoot d p with
  | some root => load d root
  | none =>
    throw (.config
      ("No " ++ projectFileName ++ " found in " ++ p ++ " or any parent directory"))

/-- Where relative outputs go. -/
def outputDir (p : Project) : Path := p.root.join p.file.defaults.outputDir

/-- The jobs, completed with the defaults. -/
def jobs (p : Project) : List MergedJob := p.file.jobs.map (p.file.merge p.root)

/-- The schema that is configured, if there is one. -/
def schema (p : Project) (d : Disk) : Except Error (Option Schema) :=
  match p.file.defaults.schema with
  | none => .ok none
  | some path =>
    match d.tables (p.root.join path) with
    | .ok ts => .ok (some (.ofTables ts))
    | .error cause => .error (.schema cause)

/-- The ledger of the output directory, an empty one when there is none. -/
def ledger (p : Project) (d : Disk) : Except Error Ledger :=
  (Ledger.load d p.outputDir).map (·.getD {})

/-- How a job's output stands to a ledger and the disk. -/
def staleness (p : Project) (l : Ledger) (d : Disk) (j : MergedJob) : Staleness :=
  l.staleness d p.outputDir j.request.output j.templatePath j.schema

/-- How the outputs of all jobs stand. -/
def status (p : Project) (d : Disk) : Except Error (List JobStatus) := do
  let l ← p.ledger d
  pure (p.jobs.map fun j =>
    { template := j.request.template
      output := j.request.output
      backend := j.backend
      staleness := p.staleness l d j })

end Project

end Stencil
