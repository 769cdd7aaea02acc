import Mathlib.Algebra.GroupWithZero.Nat
import Stencil.Proofs.Run.Delivered
import Stencil.Proofs.Run.History
import Stencil.Proofs.Run.Noted

/-!
# Books that are kept exactly

`Trail.report` says what the counts of a report are made from. This module adds what ties them to
the run at the same stage: the lines read are those of the templates opened, less those which the
plans still have to begin (`Trail.unread`); the sub-templates that were opened have returned or have
callers waiting for them (`Trail.returned`); and whatever a report names is the request's template
or one of the sub-templates that it lists (`Goes.named`). `report_exact` has all of it, for each
stage of any run.
-/

namespace Stencil

/-! ## Lines still to be delivered -/

/-- When the plan is followed, `n` lines are still delivered, unless it fails. -/
def Plan.Unread (p : Plan Unit) (n : Nat) : Prop :=
  ∃ c d : Cursor, d.Finished ∧ p.Reads c d ∧ c.left.length = n

/-- From the stage on, `n` lines are still delivered by the current template and its callers
together, unless the run fails. -/
def Stage.Unread (g : Stage) (n : Nat) : Prop :=
  ∃ m ms, g.plan.Unread m ∧ List.Forall₂ (fun w m => w.rest.Unread m) g.waiting ms ∧
    m + ms.sum = n

theorem Plan.Unread.ofFail (err : Error) (n : Nat) : (fail err).Unread n :=
  ⟨⟨.idle, List.replicate n ⟨0, ""⟩⟩, ⟨.idle, []⟩, ⟨nofun, rfl⟩, trivial, List.length_replicate⟩

theorem Rules.unread_source {u : Rules} (hpasses : 0 < u.passes) (s : Source) :
    (u.sourcePlan s).Unread s.lines.length := by
  obtain ⟨d, hd, hreads⟩ := reads_source hpasses s
  exact ⟨_, d, hd, hreads, rfl⟩

/-- When a run has ended well, no line is left to be delivered. -/
theorem Stage.Unread.eq_zero {g : Stage} {n : Nat} {report : Report} (h : g.Unread n)
    (hdone : g.outcome = some (.ok report)) : n = 0 := by
  obtain ⟨r, p, ws⟩ := g
  obtain ⟨m, ms, hplan, hwaiting, rfl⟩ := h
  unfold Stage.outcome at hdone
  split at hdone
  · next hp hw =>
    cases hp
    cases hw
    cases hwaiting
    obtain ⟨c, d, hd, hsame, rfl⟩ := hplan
    cases hsame
    rw [hd.left]
    rfl
  · cases hdone
  · cases hdone

namespace Engine

variable {e : Engine} {g h : Stage} {gs : List Stage} {r s : Run}

/-- The lines of the template that the store has under this name. -/
def linesOf (e : Engine) (template : String) : Nat :=
  (e.store template).toOption.elim 0 (·.lines.length)

/-- The sub-templates opened in a history, as often as they were. -/
def opened (es : List Event) : List String := es.filterMap Event.template?

/-- The lines of all sub-templates opened in a history. -/
def linesOpened (e : Engine) (es : List Event) : Nat := ((opened es).map e.linesOf).sum

theorem opened_append (es es' : List Event) : opened (es ++ es') = opened es ++ opened es' :=
  List.filterMap_append

theorem linesOpened_append (e : Engine) (es es' : List Event) :
    e.linesOpened (es ++ es') = e.linesOpened es + e.linesOpened es' := by
  rw [linesOpened, opened_append, List.map_append, List.sum_append, linesOpened, linesOpened]

/-- An instruction that is not the beginning of a line moves no cursor past one. -/
theorem unread_act {i : Instruction} {p : Plan Unit} {n : Nat}
    (hplan : (Plan.act i p).Unread n) :
    ∃ m, p.Unread m ∧ m + (i.event? r).toList.count .read = n ∧
      e.linesOpened (i.event? r).toList = 0 := by
  obtain ⟨c, d, hd, ⟨mid, hmoves, hp⟩, rfl⟩ := hplan
  cases i with
  | beginLine number =>
    obtain ⟨-, l, -, hleft, -⟩ := hmoves
    refine ⟨mid.left.length, ⟨mid, d, hd, hp, rfl⟩, ?_, rfl⟩
    rw [hleft]
    rfl
  | beginPass =>
    obtain ⟨-, rfl⟩ := hmoves
    exact ⟨c.left.length, ⟨_, d, hd, hp, rfl⟩, rfl, rfl⟩
  | noteUnknown | noteRunaway | showToken | hideToken | change | write | flush =>
    cases hmoves
    exact ⟨c.left.length, ⟨c, d, hd, hp, rfl⟩, rfl, rfl⟩

/-- From one stage to the next, the lines still to be delivered are less by one that is read, and
more by those of a sub-template that is opened. -/
theorem next_unread {n : Nat} (hnext : e.next g = some h) (hg : g.Unread n) :
    ∃ k, h.Unread k ∧
      k + (e.event? g).toList.count .read = n + e.linesOpened (e.event? g).toList := by
  obtain ⟨m, ms, hplan, hwaiting, rfl⟩ := hg
  cases next_eq_some_iff.1 hnext with
  | returned =>
    cases hwaiting with
    | @cons _ k _ ks hfirst hrest =>
      obtain ⟨c, d, hd, hsame, rfl⟩ := hplan
      cases hsame
      refine ⟨k + ks.sum, ⟨k, ks, hfirst, hrest, rfl⟩, ?_⟩
      rw [hd.left, List.sum_cons]
      exact Nat.add_comm _ _
  | @aborted _ err =>
    cases hwaiting with
    | @cons _ k _ ks hfirst hrest =>
      refine ⟨m + (k + ks.sum), ⟨m + k, ks, .ofFail err _, hrest, Nat.add_assoc m k _⟩, ?_⟩
      rw [List.sum_cons]
      rfl
  | looked =>
    obtain ⟨c, d, hd, hreads, rfl⟩ := hplan
    exact ⟨_, ⟨_, ms, ⟨c, d, hd, hreads _, rfl⟩, hwaiting, rfl⟩, rfl⟩
  | @acted r _ _ _ _ hs =>
    obtain ⟨k, hp, rfl, hopened⟩ := unread_act (r := r) hplan
    refine ⟨k + ms.sum, ⟨k, ms, hp, hwaiting, rfl⟩, ?_⟩
    rw [event?_act hs, hopened]
    omega
  | @answered r b k ws fs =>
    obtain ⟨c, d, hd, hreads, rfl⟩ := hplan
    have hevent : (e.event? ⟨r, .fields b k, ws⟩).toList.count .read = 0 ∧
        e.linesOpened (e.event? ⟨r, .fields b k, ws⟩).toList = 0 := by
      simp only [event?]
      split <;> exact ⟨rfl, rfl⟩
    rw [hevent.1, hevent.2]
    exact ⟨_, ⟨_, ms, ⟨c, d, hd, hreads fs, rfl⟩, hwaiting, rfl⟩, rfl⟩
  | @called _ t _ _ _ _ source hroom hsource =>
    rw [event?_call hroom hsource]
    have hlines : e.linesOpened [.opened t] = source.lines.length := by
      show e.linesOf t + 0 = _
      rw [linesOf, hsource]
      rfl
    refine ⟨source.lines.length + (m + ms.sum), ⟨_, m :: ms,
      Rules.unread_source e.passes_pos source, .cons hplan hwaiting, ?_⟩, ?_⟩
    · rw [List.sum_cons]
    · rw [Option.toList_some, hlines, Nat.add_comm source.lines.length]
      rfl
  | @failed _ _ err _ hfails =>
    rw [event?_fails hfails]
    exact ⟨_, ⟨m, ms, .ofFail err m, hwaiting, rfl⟩, rfl⟩

theorem start_unread (e : Engine) (q : Request) (source : Source) (now : Moment) (sink : Sink) :
    (e.start q source now sink).Unread source.lines.length := by
  obtain ⟨d, hd, hreads⟩ := Rules.reads_session e.passes_pos source
  exact ⟨_, [], ⟨_, d, hd, hreads, rfl⟩, .nil, rfl⟩

/-- The lines read, and those still to be delivered, are those of the templates opened. -/
theorem Trail.unread {n : Nat} (htrail : Trail e g gs h) (hg : g.Unread n) :
    ∃ k, h.Unread k ∧ k + (e.history gs).count .read = n + e.linesOpened (e.history gs) := by
  refine htrail.invariant (P := fun gs h => ∃ k, h.Unread k ∧
    k + (e.history gs).count .read = n + e.linesOpened (e.history gs))
    (fun gs h k hnext ⟨m, hunread, hcount⟩ => ?_) ⟨n, hg, rfl⟩
  obtain ⟨m', hunread', hcount'⟩ := next_unread hnext hunread
  refine ⟨m', hunread', ?_⟩
  rw [history_concat, List.count_append, linesOpened_append]
  omega

/-! ## Sub-templates that return -/

/-- From one stage to the next a sub-template is opened and its caller begins to wait, or a
sub-template returns and its caller waits no more. -/
theorem next_returned (hnext : e.next g = some h) :
    h.waiting.length + (e.event? g).toList.count .returned =
      g.waiting.length + (opened (e.event? g).toList).length := by
  cases next_eq_some_iff.1 hnext with
  | returned | aborted | looked => rfl
  | @acted _ _ i _ _ hs =>
    rw [event?_act hs]
    cases i <;> rfl
  | answered =>
    simp only [event?]
    split <;> rfl
  | called hroom hsource =>
    rw [event?_call hroom hsource]
    rfl
  | failed hfails =>
    rw [event?_fails hfails]
    rfl

/-- The sub-templates that were opened have returned, or their callers wait. -/
theorem Trail.returned (htrail : Trail e g gs h) (hg : g.waiting = []) :
    (e.history gs).count .returned + h.waiting.length = (opened (e.history gs)).length := by
  refine htrail.invariant (P := fun gs h => (e.history gs).count .returned + h.waiting.length =
    (opened (e.history gs)).length) (fun gs h k hnext hcount => ?_) ?_
  · have hstep := next_returned hnext
    rw [history_concat, List.count_append, opened_append, List.length_append]
    omega
  · rw [hg]
    rfl

/-! ## Names -/

end Engine

/-- The template is that of the request, `main`, or one of the sub-templates in the report. -/
def Report.Names (p : Report) (main template : String) : Prop :=
  template = main ∨ template ∈ p.subTemplateNames

theorem Report.Names.extends {p p' : Report} {main template : String}
    (h : p.Names main template) (hp : p.Extends p') : p'.Names main template :=
  h.imp id fun hmem => hp.opened hmem

/-- The templates of the contexts and of the unknown tokens are named in the report. -/
structure Run.Named (main : String) (r : Run) : Prop where
  contexts : ∀ c ∈ r.arena.contexts, r.report.Names main c.template
  unknown : ∀ u ∈ r.report.unknownTriggers, r.report.Names main u.template

namespace Engine

variable {e : Engine} {g h : Stage} {gs : List Stage} {r s : Run} {main : String}

/-- An unknown token that is noted is one of the current template. -/
theorem apply_unknown {i : Instruction} {u : Unresolved} (hi : i.apply r = .ok s)
    (hu : u ∈ s.report.unknownTriggers) :
    u ∈ r.report.unknownTriggers ∨ u.template = r.context.template := by
  cases i with
  | noteUnknown t =>
    cases hi
    rcases Report.mem_noteUnknown.1 hu with hu | rfl
    · exact .inl hu
    · exact .inr rfl
  | beginLine | beginPass | noteRunaway | showToken | hideToken | change =>
    cases hi
    exact .inl hu
  | write =>
    obtain ⟨sink, -, rfl⟩ := Instruction.apply_write hi
    exact .inl hu
  | flush =>
    obtain ⟨sink, -, rfl⟩ := Instruction.apply_flush hi
    exact .inl hu

theorem Move.named (h : Move e r s) (hr : r.Named main) : s.Named main := by
  have hextends := h.extends
  cases h with
  | rest => exact hr
  | answered | fallback => exact ⟨hr.contexts, hr.unknown⟩
  | act i hi =>
    refine ⟨(apply_frame hi).forall_contexts ?_ fun c hc => (hr.contexts c hc).extends hextends,
      fun u hu => ?_⟩
    · rw [(apply_frame hi).sameCall.template]
      exact (hr.contexts _ r.context_mem).extends hextends
    · rcases apply_unknown hi hu with hu | htemplate
      · exact (hr.unknown u hu).extends hextends
      · rw [htemplate]
        exact (hr.contexts _ r.context_mem).extends hextends
  | enter template isMain setup =>
    refine ⟨fun c hc => ?_, fun u hu => ?_⟩
    · have hc : c ∈ r.arena.contexts ++ [_] := hc
      rcases List.mem_append.1 hc with hc | hc
      · exact (hr.contexts c hc).extends hextends
      · rw [List.mem_singleton.1 hc, (Context.SameCall.applyAll _ setup).template]
        exact .inr (Report.mem_noteTemplate.2 (.inr rfl))
    · have hu : u ∈ (r.report.noteTemplate template).unknownTriggers := hu
      rw [Report.noteTemplate_listed] at hu
      exact (hr.unknown u hu).extends hextends
  | leave caller child =>
    exact ⟨fun c hc => hr.contexts c (Arena.mem_contexts_of_release hc), hr.unknown⟩

theorem begin_named (e : Engine) (q : Request) (now : Moment) (sink : Sink) :
    (e.begin q now sink).Named q.template := by
  refine ⟨fun c hc => .inl ?_, List.forall_mem_nil _⟩
  have hroot : c = (e.begin q now sink).context := List.mem_singleton.1 hc
  rw [hroot]
  exact (Context.SameCall.applyAll _ (e.requestSetup q)).template

/-! ## Whole runs -/

/-- What the report has counted and noted at the stage `g`, after the stages `gs` of a run over
`source` for the request `q`, which began with the given sink. -/
structure Bookkeeping (e : Engine) (q : Request) (source : Source) (sink : Sink) (gs : List Stage)
    (g : Stage) : Prop where
  /-- The lines written are those that the sink has taken. -/
  written : g.run.sink.lines.size = sink.lines.size + g.run.report.linesWritten
  /-- The lines read are those that templates have delivered. -/
  read : g.run.report.linesRead = (e.history gs).count .read
  /-- They, and those still to be delivered, are the lines of the templates opened; -/
  unread : ∃ n, g.Unread n ∧
    n + g.run.report.linesRead = source.lines.length + e.linesOpened (e.history gs)
  /-- in a run that has ended well they are all of these. -/
  readAll : (∃ report, g.outcome = some (.ok report)) →
    g.run.report.linesRead = source.lines.length + e.linesOpened (e.history gs)
  /-- The unknown tokens that were met are noted once, and no others. -/
  unknown : g.run.report.unknownTriggers.Nodup ∧
    ∀ u, u ∈ g.run.report.unknownTriggers ↔ .met u ∈ e.history gs
  /-- They are tokens of the request's template or of a sub-template that is listed. -/
  named : ∀ u ∈ g.run.report.unknownTriggers,
    u.template = q.template ∨ u.template ∈ g.run.report.subTemplateNames
  /-- The sub-templates opened are listed once, in the order of their first use. -/
  names : g.run.report.subTemplateNames.Nodup ∧
    g.run.report.subTemplateNames = (opened (e.history gs)).eraseDups
  /-- Those that have returned are counted. The others have callers waiting for them. -/
  returned : g.run.report.subTemplates = (e.history gs).count .returned ∧
    g.run.report.subTemplates + g.waiting.length = (opened (e.history gs)).length
  /-- The look-ups for a bound table that failed are counted. -/
  fallbacks : g.run.report.schemaFallbacks = (e.history gs).count .missed

/-- **The report is exact at all times.** At each stage of a run, whatever the registry and wherever
the run may fail, the report tells what has happened so far: the lines that the sink has taken, the
lines that the templates have delivered, the unknown tokens met, the sub-templates opened and
returned, and the look-ups that failed. There is one trail to a last stage, which has the result of
the run. -/
theorem report_exact (e : Engine) (q : Request) (source : Source) (now : Moment) (sink : Sink) :
    (∀ gs g, Trail e (e.start q source now sink) gs g → Bookkeeping e q source sink gs g) ∧
    ∃ gs g, Trail e (e.start q source now sink) gs g ∧
      g.outcome = some (e.run q source now sink).1 ∧
      g.run.sink = (e.run q source now sink).2 ∧
      ∀ hs h, Trail e (e.start q source now sink) hs h → e.next h = none → hs = gs ∧ h = g := by
  constructor
  · intro gs g htrail
    obtain ⟨hreport, hlines⟩ := htrail.report rfl
    obtain ⟨n, hunread, hcount⟩ := htrail.unread (start_unread e q source now sink)
    have hnamed : g.run.Named q.template :=
      htrail.goes.invariant (fun _ _ hmove hr => hmove.named hr) (begin_named e q now sink)
    have hreturned := htrail.returned rfl
    have hwritten : g.run.sink.lines.size =
        sink.lines.size + ((e.history gs).filterMap Event.line?).length := by
      have hlength := congrArg List.length hlines
      rwa [List.length_append] at hlength
    have hread : g.run.report.linesRead = (e.history gs).count .read := by rw [hreport]; rfl
    refine ⟨?_, hread, ⟨n, hunread, by rw [hread]; exact hcount⟩, ?_, ?_, hnamed.unknown, ?_, ?_,
      ?_⟩
    · rw [hreport]
      exact hwritten
    · rintro ⟨report, hdone⟩
      obtain rfl : n = 0 := hunread.eq_zero hdone
      rw [hread, ← hcount, Nat.zero_add]
    · rw [hreport]
      refine ⟨nodup_eraseDups _, fun u => ?_⟩
      show u ∈ ((e.history gs).filterMap Event.token?).eraseDups ↔ _
      rw [List.mem_eraseDups, Event.mem_token]
    · rw [hreport]
      exact ⟨nodup_eraseDups _, rfl⟩
    · rw [hreport]
      exact ⟨rfl, hreturned⟩
    · rw [hreport]
      rfl
  · obtain ⟨g, hgoes, houtcome, hsink⟩ := goes_last e q source now sink
    obtain ⟨gs, htrail⟩ := hgoes.trail
    exact ⟨gs, g, htrail, houtcome, hsink, fun hs h hother hlast =>
      hother.unique htrail hlast (next_eq_none_iff.2 ⟨_, houtcome⟩)⟩

end Engine

end Stencil
