import Stencil.Disk.Change
import Stencil.Disk.Templates
import Stencil.Run.Engine

/-!
# Runs that write files

The output of a run is put into its place as a whole and only when the run has come to its end; a
run that fails leaves what was there before. The directory of the output is made in any case once
the template is there.
-/

namespace Stencil

/-- A computation on the disk, which may fail and keeps the disk then, too. -/
abbrev Work := ExceptT Error (StateM Disk)

namespace Work

/-- A result that changes nothing. -/
def ofExcept {α : Type} (r : Except Error α) : Work α := fun d => (r, d)

/-- A result that is read off the disk. -/
def query {α : Type} (f : Disk → Except Error α) : Work α := fun d => (f d, d)

/-- A task whose failure is an answer. -/
def attempt {α : Type} (t : Work α) : Work (Except Error α) := fun d =>
  let r := t d
  (.ok r.1, r.2)

end Work

/-- The directory in which a file lies. -/
def Path.directory (p : Path) : Path :=
  match p.parent with
  | some q => if q.isEmpty then "." else q
  | none => "."

/-- Makes the directory of an output. -/
def prepareOutput (output : Path) : Work Unit := fun d =>
  let r := d.makeDirectories output.directory
  (r.1.mapError (.outputUnwritable output), r.2)

/-- The content of a file of lines. -/
def fileOfLines (lines : List String) : Text.Bytes :=
  lines.flatMap fun l => Text.encode l ++ [10]

/-- Puts the lines of an output into its place. -/
def installOutput (output : Path) (lines : List String) : Work Unit := fun d =>
  match d.install output (fileOfLines lines) with
  | .ok after => (.ok (), after)
  | .error cause => (.error (.outputUnwritable output cause), d)

/-- What a run that writes a file works with. -/
structure Workshop where
  registry : Registry
  schema : Provider
  limits : Limits
  /-- Where templates are. -/
  templateDir : Path

namespace Workshop

/-- The engine over the templates as they are on a disk. -/
def engine (w : Workshop) (d : Disk) : Engine where
  registry := w.registry
  schema := w.schema
  store := d.templates w.templateDir
  limits := w.limits

/-- Runs a request into its output file. -/
def generate (w : Workshop) (q : Request) (now : Moment) : Work Report := do
  let source ← .query fun d => (w.engine d).store q.template
  prepareOutput q.output
  let (result, sink) := (w.engine (← get)).run q source now {}
  let report ← .ofExcept result
  installOutput q.output sink.lines.toList
  pure report

end Workshop

end Stencil
