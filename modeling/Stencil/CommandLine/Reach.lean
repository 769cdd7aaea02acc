import Stencil.CommandLine.Command

/-!
# What a command looks at

`reach` lists the paths that a command looks at, as far as they follow from the files that a disk
holds. The names of sub-templates are only known when a run asks for them, so a disk that lacks a
file of the list may give a longer one when the file is added.
-/

namespace Stencil.CommandLine

/-- The template that a run asked for in vain. -/
def askedFor (dir : Path) : Error → List Path
  | .templateNotFound name _ => [dir.join name]
  | _ => []

/-- The paths that the generation of one output looks at. -/
def generateReach (now : Moment) (args : List String) (d : Disk) : List Path :=
  match positional args with
  | template :: output :: _ =>
    [template, output] ++ (flagValue? "--schema" args).toList ++
      (match (generate now args d).1 with
        | .ok _ => []
        | .error e => askedFor (Path.directory template) e)
  | _ => []

/-- The paths that a ledger's records name. -/
def recordedPaths (l : Ledger) : List Path :=
  l.outputs.values.flatMap fun r => r.fragments.keys

/-- The templates that jobs asked for in vain. -/
def jobsAskedFor (js : List MergedJob) (os : List JobOutcome) : List Path :=
  (List.zip js os).flatMap fun e =>
    match e.2 with
    | .failed _ cause => askedFor e.1.templateDir cause
    | _ => []

/-- The paths that a command on a project looks at. -/
def projectReach (now : Moment) (force : Bool) (d : Disk) : List Path :=
  d.here.upward.map (fun a => Place.path (a ++ [projectFileName])) ++
    match Project.discover d d.here.path with
    | .error _ => []
    | .ok p =>
      [p.outputDir.join ledgerFileName] ++ (p.file.defaults.schema.map p.root.join).toList ++
        p.jobs.flatMap (fun j => [j.templatePath, j.request.output]) ++
        (match p.ledger d with
          | .ok l => recordedPaths l
          | .error _ => []) ++
        (match (p.regen force now d).1 with
          | .ok os => jobsAskedFor p.jobs os
          | .error _ => [])

/-- The paths that a command line looks at. -/
def reach (now : Moment) (args : List String) (d : Disk) : List Path :=
  match args with
  | "generate" :: rest | "gen" :: rest => generateReach now rest d
  | "check" :: rest => positional rest
  | "regen" :: rest | "status" :: rest => projectReach now (hasFlag "--force" rest) d
  | _ => []

end Stencil.CommandLine
