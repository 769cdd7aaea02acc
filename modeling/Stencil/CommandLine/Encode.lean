import Stencil.Check
import Stencil.Json
import Stencil.Project.Regen

/-!
# Results as JSON

The members stand in a fixed order.
-/

namespace Stencil

/-- A token or a text left unresolved. -/
def Unresolved.toJson (u : Unresolved) : Json :=
  .object [("template", .string u.template), ("line", .natural u.line), ("token", .string u.text)]

/-- The report of a run. -/
def Report.toJson (r : Report) : Json :=
  .object
    [("lines_read", .natural r.linesRead), ("lines_written", .natural r.linesWritten),
     ("passes", .natural r.passes),
     ("unknown_triggers", .array (r.unknownTriggers.map Unresolved.toJson)),
     ("runaway_lines", .array (r.runawayLines.map Unresolved.toJson)),
     ("schema_fallbacks", .natural r.schemaFallbacks),
     ("sub_templates", .natural r.subTemplates),
     ("sub_template_names", .strings r.subTemplateNames)]

/-- A token whose trigger is not registered. -/
def Finding.toJson (f : Finding) : Json :=
  .object
    [("line", .natural f.line), ("column", .natural f.column), ("name", .string f.name),
     ("token", .string f.token)]

/-- The report of a check. -/
def CheckReport.toJson (r : CheckReport) : Json :=
  .object
    [("template", .string r.template), ("backend", .string r.backend),
     ("lines", .natural r.lines), ("macro_lines", .natural r.macroLines),
     ("tokens", .natural r.tokens), ("unknown", .array (r.unknown.map Finding.toJson))]

/-- A trigger without what it does. -/
def Trigger.toJson (t : Trigger) : Json :=
  .object
    [("name", .string t.name), ("line_replacing", .bool t.replacesLine),
     ("max_params", .optional .natural t.maxParams), ("summary", .string t.summary)]

/-- How a job's output stands. -/
def JobStatus.toJson (s : JobStatus) : Json :=
  .object
    [("template", .string s.template), ("output", .string s.output),
     ("backend", .string s.backend.name), ("staleness", .string s.staleness.name)]

/-- What became of a job. -/
def JobOutcome.toJson : JobOutcome → Json
  | generated output reason report =>
    .object
      [("status", .string "generated"), ("output", .string output),
       ("reason", .string reason.name), ("report", report.toJson)]
  | skipped output => .object [("status", .string "skipped"), ("output", .string output)]
  | failed output cause =>
    .object
      [("status", .string "failed"), ("output", .string output),
       ("error", .string cause.message)]

end Stencil
