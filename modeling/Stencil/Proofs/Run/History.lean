import Stencil.Proofs.FirstUse
import Stencil.Proofs.Run.Trail

/-!
# What a report counts

At each stage of a run at most one thing happens that its report is about: a line is read or
written, a pass begins, an unknown token is met, a look-up misses its table, a sub-template is
opened or returns. `Engine.event?` reads it off the stage, and a `Trail` has all stages that a run
has come through. The report of a run is then a function of its history: `Trail.report` says that it
is `Report.ofHistory`, at every stage, whatever failed on the way.
-/

namespace Stencil

/-! ## Histories -/

/-- Something that a report tells of. -/
inductive Event where
  /-- A template delivers a line. -/
  | read
  /-- The sink takes a line. -/
  | wrote (line : String)
  | pass
  /-- A token without a trigger is met. -/
  | met (token : Unresolved)
  /-- A line does not settle. -/
  | ranAway (line : Unresolved)
  /-- The fields of a bound table are looked up and not found. -/
  | missed
  /-- A sub-template that does not lie too deep is found in the store. -/
  | opened (template : String)
  /-- A sub-template has come to its end or failed. -/
  | returned
deriving DecidableEq, Repr

namespace Event

/-- The line that was written. -/
def line? : Event → Option String
  | wrote line => some line
  | _ => none

/-- The unknown token that was met. -/
def token? : Event → Option Unresolved
  | met u => some u
  | _ => none

/-- The line that did not settle. -/
def runaway? : Event → Option Unresolved
  | ranAway u => some u
  | _ => none

/-- The sub-template that was opened. -/
def template? : Event → Option String
  | opened t => some t
  | _ => none

/-- The lines written among the events. -/
theorem mem_line {es : List Event} {line : String} :
    line ∈ es.filterMap line? ↔ .wrote line ∈ es := by
  rw [List.mem_filterMap]
  constructor
  · rintro ⟨ev, hmem, hev⟩
    cases ev with
    | wrote l =>
      cases hev
      exact hmem
    | read | pass | met | ranAway | missed | opened | returned => cases hev
  · exact fun hmem => ⟨_, hmem, rfl⟩

/-- The unknown tokens among the events. -/
theorem mem_token {es : List Event} {u : Unresolved} :
    u ∈ es.filterMap token? ↔ .met u ∈ es := by
  rw [List.mem_filterMap]
  constructor
  · rintro ⟨ev, hmem, hev⟩
    cases ev with
    | met v =>
      cases hev
      exact hmem
    | read | wrote | pass | ranAway | missed | opened | returned => cases hev
  · exact fun hmem => ⟨_, hmem, rfl⟩

end Event

/-- The report of a run with this history. Unknown tokens and sub-templates are listed once, in the
order in which they came first. -/
def Report.ofHistory (es : List Event) : Report where
  linesRead := es.count .read
  linesWritten := (es.filterMap Event.line?).length
  passes := es.count .pass
  unknownTriggers := (es.filterMap Event.token?).eraseDups
  runawayLines := es.filterMap Event.runaway?
  schemaFallbacks := es.count .missed
  subTemplates := es.count .returned
  subTemplateNames := (es.filterMap Event.template?).eraseDups

/-- The report after an event. -/
def Report.after (p : Report) : Event → Report
  | .read => { p with linesRead := p.linesRead + 1 }
  | .wrote _ => { p with linesWritten := p.linesWritten + 1 }
  | .pass => { p with passes := p.passes + 1 }
  | .met u => p.noteUnknown u
  | .ranAway u => p.noteRunaway u
  | .missed => { p with schemaFallbacks := p.schemaFallbacks + 1 }
  | .opened t => p.noteTemplate t
  | .returned => { p with subTemplates := p.subTemplates + 1 }

theorem Report.noteUnknown_listed (p : Report) (u : Unresolved) :
    p.noteUnknown u = { p with
      unknownTriggers :=
        if u ∈ p.unknownTriggers then p.unknownTriggers else p.unknownTriggers ++ [u] } := by
  rw [noteUnknown]
  split <;> rfl

theorem Report.noteTemplate_listed (p : Report) (name : String) :
    p.noteTemplate name = { p with
      subTemplateNames :=
        if name ∈ p.subTemplateNames then p.subTemplateNames
        else p.subTemplateNames ++ [name] } := by
  rw [noteTemplate]
  split <;> rfl

/-- One more event changes the report that a history makes as it changes any report. -/
theorem Report.ofHistory_concat (es : List Event) (ev : Event) :
    ofHistory (es ++ [ev]) = (ofHistory es).after ev := by
  cases ev <;>
    simp [ofHistory, after, noteUnknown_listed, noteRunaway, noteTemplate_listed, eraseDups_concat,
      List.filterMap_cons, Event.line?, Event.token?, Event.runaway?, Event.template?]

/-! ## What happens at a stage -/

/-- What an instruction that succeeds tells the report. -/
def Instruction.event? (r : Run) : Instruction → Option Event
  | beginLine _ => some .read
  | beginPass => some .pass
  | noteUnknown t => some (.met (r.unresolved t.source))
  | noteRunaway text => some (.ranAway (r.unresolved text))
  | write line => some (.wrote line)
  | _ => none

namespace Engine

/-- What happens at a stage. -/
def event? (e : Engine) (g : Stage) : Option Event :=
  match g.plan with
  | .done _ | .fail _ => if g.waiting.isEmpty then none else some .returned
  | .look _ => none
  | .act i _ =>
    match i.apply g.run with
    | .ok _ => i.event? g.run
    | .error _ => none
  | .fields keysOnly _ =>
    match g.run.context.table, (e.tableFields keysOnly g.run).1 with
    | some _, .ok none => some .missed
    | _, _ => none
  | .call template _ _ _ =>
    if e.limits.maxDepth < g.run.context.depth + 1 then none
    else
      match e.store template with
      | .error _ => none
      | .ok _ => some (.opened template)

/-- What happens at the stages `gs`. -/
def history (e : Engine) (gs : List Stage) : List Event := gs.filterMap e.event?

variable {e : Engine} {g h k : Stage} {gs hs : List Stage} {r s : Run}

section

variable {i : Instruction} {p : Plan Unit} {ws : List Waiting} {t : String} {m : Bool}
  {c : List Change} {err : Error} {source : Source}

/-- At an instruction that succeeds, its event happens. -/
theorem event?_act (hs : i.apply r = .ok s) : e.event? ⟨r, .act i p, ws⟩ = i.event? r := by
  show (match i.apply r with | .ok _ => i.event? r | .error _ => none) = _
  rw [hs]

/-- At a plan that fails, nothing happens. -/
theorem event?_fails (hfails : Fails e r p err) : e.event? ⟨r, p, ws⟩ = none := by
  cases hfails with
  | refused herr => simp only [event?, herr]
  | tooDeep hdeep => exact if_pos hdeep
  | missing hroom herr => simp only [event?, if_neg (Nat.not_lt_of_le hroom), herr]

/-- At a sub-template that is opened, that happens. -/
theorem event?_call (hroom : r.context.depth + 1 ≤ e.limits.maxDepth)
    (hsource : e.store t = .ok source) :
    e.event? ⟨r, .call t m c p, ws⟩ = some (.opened t) := by
  simp only [event?, if_neg (Nat.not_lt_of_le hroom), hsource]

end

theorem history_concat (e : Engine) (gs : List Stage) (g : Stage) :
    e.history (gs ++ [g]) = e.history gs ++ (e.event? g).toList := by
  rw [history, List.filterMap_append, history]
  cases hev : e.event? g <;> simp [hev]

/-! ## What an event changes -/

/-- The run `s` is the run `r` after an event, or after none: its report has changed accordingly,
and its sink has the line that was written. -/
structure Tells (r : Run) (ev : Option Event) (s : Run) : Prop where
  report : s.report = ev.elim r.report r.report.after
  lines : s.sink.lines.toList = r.sink.lines.toList ++ (ev.bind Event.line?).toList

theorem Tells.nothing (hreport : s.report = r.report) (hsink : s.sink = r.sink) :
    Tells r none s := by
  refine ⟨hreport, ?_⟩
  rw [hsink]
  exact (List.append_nil _).symm

/-- An event that is not a line written changes the report only. -/
theorem Tells.unwritten {ev : Event} (hreport : s.report = r.report.after ev)
    (hline : ev.line? = none) (hsink : s.sink = r.sink) : Tells r (some ev) s := by
  refine ⟨hreport, ?_⟩
  rw [hsink, Option.bind_some, hline]
  exact (List.append_nil _).symm

theorem apply_tells {i : Instruction} (hi : i.apply r = .ok s) : Tells r (i.event? r) s := by
  cases i with
  | beginLine | beginPass | noteUnknown | noteRunaway =>
    cases hi
    exact .unwritten rfl rfl rfl
  | showToken | hideToken | change =>
    cases hi
    exact .nothing rfl rfl
  | write line =>
    obtain ⟨sink, hsink, rfl⟩ := Instruction.apply_write hi
    refine ⟨rfl, ?_⟩
    show sink.lines.toList = _
    rw [Sink.eq_of_write hsink]
    exact Array.toList_push
  | flush =>
    obtain ⟨sink, hsink, rfl⟩ := Instruction.apply_flush hi
    refine ⟨rfl, ?_⟩
    show sink.lines.toList = _
    rw [Sink.eq_of_flush hsink]
    exact (List.append_nil _).symm

/-- A look-up of fields is counted when a table is bound and nothing is found. -/
theorem tableFields_tells (keysOnly : Bool) (r : Run) :
    Tells r (match r.context.table, (e.tableFields keysOnly r).1 with
      | some _, .ok none => some .missed
      | _, _ => none) (e.tableFields keysOnly r).2 := by
  rw [tableFields, Effect.get_bind]
  cases r.context.table with
  | none => exact .nothing rfl rfl
  | some b =>
    obtain ⟨table, index, fields⟩ := b
    cases fields with
    | some fs => exact .nothing rfl rfl
    | none =>
      cases hl : (r.memo.lookup e.schema table keysOnly).1 with
      | ok fs =>
        simp only [hl]
        exact .nothing rfl rfl
      | error err =>
        simp only [hl]
        exact .unwritten rfl rfl rfl

/-- From one stage to the next the report and the sink change as what happens tells. -/
theorem next_tells (hnext : e.next g = some h) : Tells g.run (e.event? g) h.run := by
  cases next_eq_some_iff.1 hnext with
  | returned | aborted => exact .unwritten rfl rfl rfl
  | looked => exact .nothing rfl rfl
  | acted hs =>
    rw [event?_act hs]
    exact apply_tells hs
  | answered => exact tableFields_tells _ _
  | called hroom hsource =>
    rw [event?_call hroom hsource]
    exact .unwritten rfl rfl rfl
  | failed hfails =>
    rw [event?_fails hfails]
    exact .nothing rfl rfl

/-- A trail from a run that has counted nothing: the report of the run at its end is made by the
history, and the sink has taken the lines written. -/
theorem Trail.report (htrail : Trail e g gs h) (hstart : g.run.report = {}) :
    h.run.report = .ofHistory (e.history gs) ∧
      h.run.sink.lines.toList =
        g.run.sink.lines.toList ++ (e.history gs).filterMap Event.line? := by
  refine htrail.invariant (P := fun gs h => h.run.report = .ofHistory (e.history gs) ∧
    h.run.sink.lines.toList = g.run.sink.lines.toList ++ (e.history gs).filterMap Event.line?)
    (fun gs h k hnext ⟨hreport, hlines⟩ => ?_) ⟨hstart, (List.append_nil _).symm⟩
  obtain ⟨hreport', hlines'⟩ := next_tells hnext
  rw [history_concat, hreport', hlines', hreport, hlines, List.filterMap_append,
    List.append_assoc]
  cases e.event? h with
  | none => exact ⟨by rw [Option.toList_none, List.append_nil]; rfl, rfl⟩
  | some ev =>
    refine ⟨(Report.ofHistory_concat _ ev).symm, ?_⟩
    cases ev <;> rfl

end Engine

end Stencil
