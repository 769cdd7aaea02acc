import Stencil.Context.Arena
import Stencil.Run.Report
import Stencil.Run.Sink
import Stencil.Schema.Memo
import Stencil.Source
import Stencil.Token.Scan
import Stencil.Trigger.Registry

/-!
# Runs

A run processes a template line by line. A line without macros is written as it stands. Any other
line is rewritten in passes: each pass cuts the text into pieces, resolves the tokens whose
triggers are registered and puts their values in their places. Passes go on while something was
resolved and macros remain, up to the limit. A line-replacing trigger ends the line with its
value. What the line has become is written once, unless it was emptied.

A sub-template is processed in the same way in a child context, between `enter` and `leave`. The
depth still allowed decreases with every call, which is why every run ends.

A computation keeps the state of the run when it fails: what was written stays written.
-/

namespace Stencil

/-- What a run works with and never changes. -/
structure Engine where
  registry : Registry
  schema : Provider
  store : TemplateStore
  limits : Limits

/-- The state of a run. -/
structure Run where
  arena : Arena
  /-- The place of the current context. -/
  current : Nat
  memo : Memo
  report : Report
  sink : Sink

/-- A computation over a run, which may fail and keeps the state then, too. -/
abbrev Gen := ExceptT Error (StateM Run)

namespace Run

/-- The context of the template being processed. -/
def context (r : Run) : Context := r.arena.get r.current

/-- The run with the current context changed. -/
def mapContext (r : Run) (f : Context → Context) : Run :=
  { r with arena := r.arena.modify r.current f }

/-- The run with the report changed. -/
def mapReport (r : Run) (f : Report → Report) : Run := { r with report := f r.report }

/-- The error of a sink that refuses. -/
def unwritable (r : Run) (cause : IoError) : Error := .outputUnwritable r.arena.root.output cause

/-- An entry for a text on the current line. -/
def unresolved (r : Run) (text : List Char) : Unresolved :=
  ⟨r.context.template, r.context.line, String.ofList text⟩

end Run

namespace Engine

/-! ## Requests of triggers -/

/-- Writes one line. -/
def writeLine (line : String) : Gen Unit := do
  let r ← get
  match r.sink.write line with
  | .error cause => throw (r.unwritable cause)
  | .ok sink =>
    set { r with
      sink
      report := { r.report with linesWritten := r.report.linesWritten + 1 } }

/-- Writes several lines in order. -/
def writeLines : List String → Gen Unit
  | [] => pure ()
  | l :: ls => do
    writeLine l
    writeLines ls

/-- The lines of a value: what the line feeds separate, each without one carriage return at its
end. -/
def valueLines (text : List Char) : List String :=
  (text.splitOn '\n').map fun l => String.ofList (dropLastIf '\r' l)

/-- Writes a value that may span several lines. -/
def emit (text : List Char) : Gen Unit := writeLines (valueLines text)

/-- The fields of the bound table. Fields given by the caller are taken as they are; a failed
look-up is counted and gives nothing. -/
def tableFields (e : Engine) (keysOnly : Bool) : Gen (Option (List Field)) := do
  let r ← get
  match r.context.table with
  | none => pure none
  | some b =>
    match b.fields with
    | some fs => pure (some (if keysOnly then fs.filter (·.isKey) else fs))
    | none =>
      let (answer, memo) := r.memo.lookup e.schema b.table keysOnly
      match answer with
      | .ok fs =>
        set { r with memo }
        pure (some fs)
      | .error _ =>
        set { r with
          memo
          report := { r.report with schemaFallbacks := r.report.schemaFallbacks + 1 } }
        pure none

/-- How a sub-template is processed: by name, as a main template or not, with changes to its
context. -/
abbrev Sub := String → Bool → List Change → Gen Unit

/-- Performs an action on the run. -/
def perform {α : Type} (e : Engine) (sub : Sub) : Action α → Gen α
  | .done v => pure v
  | .fail m => throw (.other m)
  | .context k => do perform e sub (k (← get).context)
  | .ancestry k => do
    let r ← get
    perform e sub (k ((r.arena.ancestry r.current).map (·.template)))
  | .live k => do perform e sub (k (← get).arena.size)
  | .limits k => perform e sub (k e.limits)
  | .report k => do perform e sub (k (← get).report)
  | .tables k => perform e sub (k e.schema.listing)
  | .fields b k => do perform e sub (k (← tableFields e b))
  | .change c k => do
    modify (·.mapContext (·.apply c))
    perform e sub k
  | .write l k => do
    writeLine l
    perform e sub k
  | .call t m s k => do
    sub t m s
    perform e sub k

/-! ## Passes -/

/-- What a pass makes of a text. -/
inductive Outcome where
  /-- A line-replacing trigger gave the whole output of the line. -/
  | replaced (value : Option String)
  /-- The rewritten text and the number of tokens resolved. -/
  | rewritten (text : List Char) (resolved : Nat)
deriving DecidableEq, Repr

namespace Outcome

/-- The outcome for a text with `cs` in front that a pass kept. -/
def kept (cs : List Char) : Outcome → Outcome
  | replaced v => replaced v
  | rewritten text n => rewritten (cs ++ text) n

/-- The outcome for a text with a token in front that was resolved to `cs`. -/
def resolved (cs : List Char) : Outcome → Outcome
  | replaced v => replaced v
  | rewritten text n => rewritten (cs ++ text) (n + 1)

end Outcome

/-- The text of a value. -/
def valueText (v : Option String) : List Char := (v.getD "").toList

/-- What the policy leaves of an unknown token. -/
def unknownText (e : Engine) (t : Token) : List Char :=
  match e.limits.unknown with
  | .keep => t.source
  | .remove => []

/-- Resolves one token by its trigger. While the trigger runs, the context shows the token and
its column. -/
def resolveToken (e : Engine) (sub : Sub) (column : Nat) (t : Token) (trigger : Trigger) :
    Gen (Option String) := do
  modify (·.mapContext fun c =>
    { c with token := some (String.ofList (t.sourceUpTo trigger.maxParams)), column })
  let value ← perform e sub (trigger.resolve (t.paramsUpTo trigger.maxParams))
  modify (·.mapContext fun c => { c with token := none })
  pure value

/-- Resolves the tokens among the pieces of a text, from left to right. `column` is where the
first piece starts. -/
def resolvePieces (e : Engine) (sub : Sub) : (column : Nat) → List Piece → Gen Outcome
  | _, [] => pure (.rewritten [] 0)
  | column, .plain c :: ps => do
    let o ← resolvePieces e sub (advance column [c]) ps
    pure (o.kept [c])
  | column, .token t :: ps =>
    match e.registry.find? t.name with
    | none => do
      modify fun r => r.mapReport (·.noteUnknown (r.unresolved t.source))
      let o ← resolvePieces e sub (advance column t.source) ps
      pure (o.kept (unknownText e t))
    | some trigger => do
      let value ← resolveToken e sub column t trigger
      if trigger.replacesLine then pure (.replaced value)
      else
        let o ← resolvePieces e sub (advance column t.source) ps
        pure (o.resolved (valueText value ++ t.sourceBeyond trigger.maxParams))

/-- One pass over a text. -/
def pass (e : Engine) (sub : Sub) (text : List Char) : Gen Outcome := do
  modify (·.mapReport fun p => { p with passes := p.passes + 1 })
  resolvePieces e sub 0 (pieces text)

/-- Whether a token of the text has a registered trigger. -/
def resolvable (e : Engine) (text : List Char) : Bool :=
  ((pieces text).filterMap Piece.token?).any fun t => e.registry.contains t.name

/-! ## Lines and templates -/

/-- What the passes make of a line. -/
inductive Settled where
  /-- A line-replacing trigger gave the output. -/
  | replaced (value : Option String)
  /-- The final text, and whether any token was resolved on the way. -/
  | text (final : List Char) (resolvedAny : Bool)
deriving DecidableEq, Repr

/-- Passes over a text, as many as `left` at most. `resolvedAny` tells whether an earlier pass
resolved a token. A text that could be resolved further when the passes are used up is noted
as a runaway. -/
def settle (e : Engine) (sub : Sub) : (left : Nat) → (text : List Char) → (resolvedAny : Bool) →
    Gen Settled
  | 0, text, resolvedAny => pure (.text text resolvedAny)
  | left + 1, text, resolvedAny => do
    match ← pass e sub text with
    | .replaced value => pure (.replaced value)
    | .rewritten text 0 => pure (.text text resolvedAny)
    | .rewritten text (_ + 1) =>
      if !carriesMacros text then pure (.text text true)
      else if left = 0 then do
        if resolvable e text then
          modify fun r => r.mapReport (·.noteRunaway (r.unresolved text))
        pure (.text text true)
      else settle e sub left text true

/-- Writes what a line has become. A value that is absent or empty and a text emptied by its
triggers leave no line. -/
def emitSettled : Settled → Gen Unit
  | .replaced none => pure ()
  | .replaced (some v) => if v.isEmpty then pure () else emit v.toList
  | .text final resolvedAny => if final.isEmpty && resolvedAny then pure () else emit final

/-- Processes one line. -/
def processLine (e : Engine) (sub : Sub) (line : Line) : Gen Unit :=
  if carriesMacros line.text.toList then do
    emitSettled (← settle e sub e.limits.passes line.text.toList false)
  else writeLine line.text

/-- Processes the lines of a template in the current context. -/
def processLines (e : Engine) (sub : Sub) : List Line → Gen Unit
  | [] => pure ()
  | l :: ls => do
    modify (·.mapReport fun p => { p with linesRead := p.linesRead + 1 })
    modify (·.mapContext fun c => { c with line := l.number })
    processLine e sub l
    processLines e sub ls

/-- Processes a template in the current context. -/
def processSource (e : Engine) (sub : Sub) (s : Source) : Gen Unit := do
  processLines e sub s.lines
  match s.failure with
  | none => pure ()
  | some cause => throw (.io cause)

/-! ## Sub-templates -/

/-- The run at the beginning of a sub-template: its name is noted, and its context is on top
of the arena and current. -/
def enter (template : String) (isMain : Bool) (setup : List Change) (r : Run) : Run :=
  let child := (r.arena.childOf r.current template isMain).applyAll setup
  { r with
    arena := r.arena.push child
    current := r.arena.size
    report := r.report.noteTemplate template }

/-- The run at the end of a sub-template whose context is at `child` and which was called from
the context at `caller`. -/
def leave (caller child : Nat) (r : Run) : Run :=
  { r with
    arena := r.arena.release child
    current := caller
    report := { r.report with subTemplates := r.report.subTemplates + 1 } }

/-- A computation framed by changes to the run, of which the second is made even when the
computation fails. -/
def framed {α : Type} (before after : Run → Run) (body : Gen α) : Gen α :=
  fun r => ((body (before r)).1, after (body (before r)).2)

/-- Processes a sub-template that lies at most `room` levels below the current one. -/
def call (e : Engine) : (room : Nat) → Sub
  | 0, template, _, _ => throw (.nestingTooDeep e.limits.maxDepth template)
  | room + 1, template, isMain, setup => do
    match e.store template with
    | .error err => throw err
    | .ok source =>
      let r ← get
      framed (enter template isMain setup) (leave r.current r.arena.size)
        (processSource e (call e room) source)

end Engine

/-! ## Top-level runs -/

/-- What to generate. -/
structure Request where
  /-- The name of the template. -/
  template : String
  output : Path
  insuranceLine : String
  processType : String
  isMain : Bool := true
  /-- The program name, when it is not to follow from the output. -/
  programName : Option String := none
  linkage : Option String := none
  /-- The table bound at the start. -/
  table : Option String := none
  /-- The fields of that table, when they are not to come from the schema. -/
  tableFields : Option (List Field) := none
deriving DecidableEq, Repr

namespace Request

/-- The explicit program name, else the one the output stands for. -/
def effectiveProgram (q : Request) : String :=
  q.programName.getD (Naming.programOfOutput q.output)

/-- The business values that a request starts with. -/
def business (q : Request) : Business where
  insuranceLine := q.insuranceLine
  processType := q.processType
  programName := q.effectiveProgram
  linkage := q.linkage.getD ""

end Request

namespace Engine

/-- The changes that bind a request's table. -/
def requestSetup (e : Engine) (q : Request) : List Change :=
  match q.table with
  | none => []
  | some t => [.bind { Binding.ofListing e.schema.listing t with fields := q.tableFields }]

/-- The run before its first line. -/
def begin (e : Engine) (q : Request) (now : Moment) (sink : Sink) : Run where
  arena :=
    (Arena.ofRoot q.template q.output q.business q.isMain now).modify 0
      (·.applyAll (e.requestSetup q))
  current := 0
  memo := .empty
  report := {}
  sink

/-- Flushes the sink of a main run. -/
def finish : Gen Unit := do
  let r ← get
  if r.context.isMain then
    match r.sink.flush with
    | .error cause => throw (r.unwritable cause)
    | .ok sink => set { r with sink }

/-- A whole run over a source. -/
def session (e : Engine) (source : Source) : Gen Unit := do
  processSource e (call e e.limits.maxDepth) source
  finish

/-- Runs a request over a source: the report or the error, and the sink as it is left. -/
def run (e : Engine) (q : Request) (source : Source) (now : Moment) (sink : Sink) :
    Except Error Report × Sink :=
  let (result, r) := session e source (e.begin q now sink)
  (result.map fun _ => r.report, r.sink)

/-- Runs a request over the template that the store has for it. -/
def generate (e : Engine) (q : Request) (now : Moment) (sink : Sink) :
    Except Error Report × Sink :=
  match e.store q.template with
  | .error err => (.error err, sink)
  | .ok source => e.run q source now sink

/-- The lines that a request makes of a text. -/
def preview (e : Engine) (q : Request) (text : String) (now : Moment) :
    Except Error (List String) :=
  let (result, sink) := e.run q (.ofText text) now {}
  result.map fun _ => sink.lines.toList

end Engine

end Stencil
