import Stencil.Project.Basic
import Stencil.Run.File

/-!
# Regeneration

`Project.regen` runs the jobs whose outputs are stale, or all of them when forced, one after the
other. A job that fails is reported, and the others still run. What was generated is noted in the
ledger, which is written at the end.
-/

namespace Stencil

/-- What became of a job. -/
inductive JobOutcome where
  | generated (output : Path) (reason : Staleness) (report : Report)
  | skipped (output : Path)
  | failed (output : Path) (cause : Error)
deriving DecidableEq, Repr

namespace JobOutcome

/-- The job was run to its end. -/
def isGenerated : JobOutcome → Bool
  | generated .. => true
  | _ => false

/-- The job's output was fresh. -/
def isSkipped : JobOutcome → Bool
  | skipped _ => true
  | _ => false

/-- The job was run and failed. -/
def isFailed : JobOutcome → Bool
  | failed .. => true
  | _ => false

end JobOutcome

namespace MergedJob

/-- What a job is run with, given the metadata of the tables. -/
def workshop (j : MergedJob) (schema : Provider) : Workshop where
  registry := j.backend.registry
  schema := schema
  limits := j.limits
  templateDir := j.templateDir

/-- The paths of the sub-templates that a run opened. -/
def fragments (j : MergedJob) (r : Report) : List Path :=
  r.subTemplateNames.map j.templateDir.join

end MergedJob

namespace Project

/-- Runs a job and notes in the ledger what its output was generated from. -/
def runJob (p : Project) (schema : Provider) (now : Moment) (l : Ledger) (reason : Staleness)
    (j : MergedJob) : Work (JobOutcome × Ledger) := do
  match ← Work.attempt ((j.workshop schema).generate j.request now) with
  | .error cause => pure (.failed j.request.output cause, l)
  | .ok report =>
    let record ← .query fun d =>
      (Ledger.recordOf d j.templatePath (j.fragments report) j.schema j.backend
        report.linesWritten now).mapError .io
    pure (.generated j.request.output reason report,
      l.note p.outputDir j.request.output record)

/-- Runs the jobs whose outputs are stale, or all when forced, in order. -/
def runJobs (p : Project) (schema : Provider) (force : Bool) (now : Moment) :
    Ledger → List MergedJob → Work (List JobOutcome × Ledger)
  | l, [] => pure ([], l)
  | l, j :: js => do
    let reason := p.staleness l (← get) j
    if !force && !reason.isStale then
      let (outcomes, last) ← runJobs p schema force now l js
      pure (.skipped j.request.output :: outcomes, last)
    else
      let (outcome, after) ← p.runJob schema now l reason j
      let (outcomes, last) ← runJobs p schema force now after js
      pure (outcome :: outcomes, last)

/-- Runs the stale jobs of a project, or all of them when forced. -/
def regen (p : Project) (force : Bool) (now : Moment) : Work (List JobOutcome) := do
  if !p.file.validate.isEmpty then
    throw (.config ("; ".intercalate p.file.validate))
  let l ← .query p.ledger
  let schema ← .query p.schema
  let (outcomes, last) ←
    p.runJobs ((schema.map Schema.provider).getD .absent) force now l p.jobs
  fun d => last.save p.outputDir d
  pure outcomes

end Project

end Stencil
