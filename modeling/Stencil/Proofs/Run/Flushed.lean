import Stencil.Proofs.Run.Law
import Stencil.Proofs.Run.Trail

/-!
# When a run flushes

A run asks its sink to take lines and to be flushed. `Asks` records what is asked from one stage to
a later one, in order. No template asks for a flush, however deep its calls nest and whether they
are main or not, since its plan has none (`Asks.writes`). A whole run goes on where its template
ends (`Asks.andThen`), so that it asks for a flush at most once and after all lines
(`run_flushes_last`).
-/

namespace Stencil

/-! ## Plans without a flush -/

namespace Plan

variable {α β : Type}

/-- Nothing in the plan flushes the output. -/
def Unflushed : Plan α → Prop
  | done _ => True
  | fail _ => True
  | look k => ∀ v, (k v).Unflushed
  | act i p => i.flushes = false ∧ p.Unflushed
  | fields _ k => ∀ fs, (k fs).Unflushed
  | call _ _ _ p => p.Unflushed

theorem Unflushed.bind {p : Plan α} {f : α → Plan β} (hp : p.Unflushed)
    (hf : ∀ v, (f v).Unflushed) : (p >>= f).Unflushed := by
  show (p.bind f).Unflushed
  induction p with
  | done v => exact hf v
  | fail err => trivial
  | look k ih | fields b k ih => exact fun v => ih v (hp v)
  | act i p ih => exact ⟨hp.1, ih hp.2⟩
  | call t m s p ih => exact ih hp

end Plan

/-- Triggers cannot flush. -/
theorem Action.unflushed_plan {α : Type} (a : Action α) : a.plan.Unflushed := by
  induction a with
  | done | fail => trivial
  | context k ih | ancestry k ih | live k ih | limits k ih | report k ih | tables k ih =>
    exact fun v => ih _
  | fields b k ih => exact fun fs => ih fs
  | change c k ih | write l k ih => exact ⟨rfl, ih⟩
  | call t m s k ih => exact ih

/-- No plan of a template flushes. -/
theorem Rules.unflushed_law (u : Rules) : Law u fun _ p _ _ => p.Unflushed where
  done _ _ := trivial
  fail _ _ _ := trivial
  perform hi _ _ := ⟨hi, trivial⟩
  action _ _ _ := Action.unflushed_plan _
  bind := .bind
  mono h _ := h

/-! ## What the sink is asked for -/

/-- What a run asks of its sink. -/
inductive Demand where
  | write (line : String)
  | flush
deriving DecidableEq, Repr

/-- What an instruction asks of the sink. -/
def Instruction.demands : Instruction → List Demand
  | write line => [.write line]
  | flush => [.flush]
  | _ => []

/-- What the sink is asked for at a stage. -/
def Stage.demands (g : Stage) : List Demand :=
  match g.plan with
  | .act i _ => i.demands
  | _ => []

/-- At the stage and at those that wait for it nothing is left to do that flushes. -/
structure Stage.Unflushed (g : Stage) : Prop where
  plan : g.plan.Unflushed
  waiting : ∀ w ∈ g.waiting, w.rest.Unflushed

theorem Instruction.demands_of_unflushed {i : Instruction} (hi : i.flushes = false) :
    ∃ lines : List String, i.demands = lines.map .write := by
  cases i with
  | write line => exact ⟨[line], rfl⟩
  | flush => cases hi
  | beginLine | beginPass | noteUnknown | noteRunaway | showToken | hideToken | change =>
    exact ⟨[], rfl⟩

namespace Engine

variable {e : Engine} {g h k : Stage} {r s : Run} {gs : List Stage} {ds ds' : List Demand}

/-- The stage `g` is followed, sooner or later, by the stage `h`, or is `h`; on the way the sink is
asked for `ds`, in this order. -/
inductive Asks (e : Engine) : Stage → List Demand → Stage → Prop where
  | refl {g : Stage} : Asks e g [] g
  | next {g h k : Stage} {ds : List Demand} (hnext : e.next g = some h) (rest : Asks e h ds k) :
      Asks e g (g.demands ++ ds) k

theorem Asks.trans (hgh : Asks e g ds h) (hhk : Asks e h ds' k) : Asks e g (ds ++ ds') k := by
  induction hgh with
  | refl => exact hhk
  | next hnext _ ih =>
    rw [List.append_assoc]
    exact .next hnext (ih hhk)

/-- On a trail, its stages ask for something one after the other, -/
theorem Trail.asks (htrail : Trail e g gs h) : Asks e g (gs.flatMap Stage.demands) h := by
  induction htrail with
  | refl => exact .refl
  | next hnext _ ih => exact .next hnext ih

/-- and nothing else is asked for. -/
theorem Asks.trail (hasks : Asks e g ds h) :
    ∃ gs, Trail e g gs h ∧ ds = gs.flatMap Stage.demands := by
  induction hasks with
  | refl => exact ⟨[], .refl, rfl⟩
  | next hnext _ ih =>
    obtain ⟨gs, htrail, rfl⟩ := ih
    exact ⟨_, .next hnext htrail, rfl⟩

/-- Where one stage leads to another, some things are asked for on the way. -/
theorem Goes.asks (hgoes : Goes e g h) : ∃ ds, Asks e g ds h := by
  obtain ⟨gs, htrail⟩ := hgoes.trail
  exact ⟨_, htrail.asks⟩

/-- What is asked for up to the last stage is one thing only. -/
theorem Asks.unique (hgh : Asks e g ds h) (hgk : Asks e g ds' k) (hh : e.next h = none)
    (hk : e.next k = none) : ds = ds' ∧ h = k := by
  obtain ⟨gs, hgs, rfl⟩ := hgh.trail
  obtain ⟨hs, hhs, rfl⟩ := hgk.trail
  obtain ⟨rfl, rfl⟩ := hgs.unique hhs hh hk
  exact ⟨rfl, rfl⟩

/-! ## Templates ask for lines only -/

theorem lasts_unflushed (e : Engine) : Plan.Lasts e Plan.Unflushed where
  fail _ := trivial
  look h r := h (e.sight r)
  act h := h.2
  fields h fs := h fs
  call h := h

theorem next_unflushed (hnext : e.next g = some h) (hg : g.Unflushed) : h.Unflushed := by
  obtain ⟨hplan, hwaiting⟩ := next_leaves (lasts_unflushed e)
    (fun _ source _ => (Rules.unflushed_law e.rules).source source) hnext ⟨hg.plan, hg.waiting⟩
  exact ⟨hplan, hwaiting⟩

/-- A stage without a flush asks for lines, -/
theorem Stage.demands_of_unflushed (hg : g.Unflushed) :
    ∃ lines : List String, g.demands = lines.map .write := by
  obtain ⟨r, p, ws⟩ := g
  obtain ⟨hplan, -⟩ := hg
  cases p with
  | act i p => exact i.demands_of_unflushed hplan.1
  | done | fail | look | fields | call => exact ⟨[], rfl⟩

/-- and so do those that follow it. -/
theorem Asks.writes (hasks : Asks e g ds h) (hg : g.Unflushed) :
    ∃ lines : List String, ds = lines.map .write := by
  induction hasks with
  | refl => exact ⟨[], rfl⟩
  | next hnext _ ih =>
    obtain ⟨first, hfirst⟩ := Stage.demands_of_unflushed hg
    obtain ⟨rest, hrest⟩ := ih (next_unflushed hnext hg)
    exact ⟨first ++ rest, by rw [hfirst, hrest, List.map_append]⟩

/-! ## Templates with more to do afterwards -/

end Engine

/-- The callers `w`, `ws` of a template, the last of which goes on with `f`. -/
def Waiting.andThen (f : Unit → Plan Unit) (w : Waiting) : List Waiting → List Waiting
  | [] => [{ w with rest := w.rest >>= f }]
  | w' :: ws => w :: w'.andThen f ws

/-- The stage `g` of a run that goes on with `f` when it has come to its end. -/
def Stage.andThen (f : Unit → Plan Unit) (g : Stage) : Stage :=
  match g.waiting with
  | [] => { g with plan := g.plan >>= f }
  | w :: ws => { g with waiting := w.andThen f ws }

namespace Engine

variable {e : Engine} {g h k : Stage} {r s : Run} {gs : List Stage} {ds ds' : List Demand}

/-- A plan that fails does so with more to do afterwards, too. -/
theorem Fails.andThen {p : Plan Unit} {err : Error} (hfails : Fails e r p err)
    (f : Unit → Plan Unit) : Fails e r (p >>= f) err := by
  cases hfails with
  | refused herr => exact .refused herr
  | tooDeep hdeep => exact .tooDeep hdeep
  | missing hroom herr => exact .missing hroom herr

/-- A run that goes on afterwards has the stages of one that does not. -/
theorem Advance.andThen (hadvance : Advance e g h) (f : Unit → Plan Unit) :
    Advance e (g.andThen f) (h.andThen f) := by
  cases hadvance with
  | @returned _ _ ws => cases ws <;> exact .returned
  | @aborted _ _ _ ws => cases ws <;> exact .aborted
  | @looked _ _ ws => cases ws <;> exact .looked
  | @acted _ _ _ _ ws hs => cases ws <;> exact .acted hs
  | @answered _ _ _ ws _ hfs => cases ws <;> exact .answered hfs
  | @called _ _ _ _ _ ws _ hroom hsource => cases ws <;> exact .called hroom hsource
  | @failed _ _ _ ws hfails =>
    cases ws with
    | nil => exact .failed (hfails.andThen f)
    | cons w ws => exact .failed hfails

/-- Each stage but the last asks for what it asks for without more to do. -/
theorem Advance.demands_andThen (hadvance : Advance e g h) (f : Unit → Plan Unit) :
    (g.andThen f).demands = g.demands := by
  cases hadvance with
  | returned | aborted => rfl
  | @looked _ _ ws | @acted _ _ _ _ ws | @answered _ _ _ ws | @called _ _ _ _ _ ws =>
    cases ws <;> rfl
  | @failed _ _ _ ws hfails => cases hfails <;> cases ws <;> rfl

/-- So it asks for the same on the way. -/
theorem Asks.andThen (f : Unit → Plan Unit) (hasks : Asks e g ds h) :
    Asks e (g.andThen f) ds (h.andThen f) := by
  induction hasks with
  | refl => exact .refl
  | @next g h k ds hnext _ ih =>
    have hadvance := next_eq_some_iff.1 hnext
    rw [← hadvance.demands_andThen f]
    exact .next (hadvance.andThen f).next_eq ih

/-! ## Whole runs -/

/-- As long as a template is processed, nothing of the sink changes but its lines. -/
theorem Reaches.sink {room : Nat} {scope : Scope} (h : Reaches e room scope r s) :
    s.sink = { r.sink with lines := s.sink.lines } := by
  induction h with
  | refl => rfl
  | step _ hstep ih =>
    cases hstep with
    | write line haccepted =>
      rw [Sink.eq_of_write haccepted, ih]
    | change | showToken | hideToken | answered | fallback | pass | unknown | runaway => exact ih
  | line _ number ih => exact ih
  | @call _ _ r s t _ _ _ _ _ ih ihnested =>
    have hcaller := congrArg (fun sink : Sink => { sink with lines := t.sink.lines }) ih
    exact ihnested.trans hcaller

/-- The end of a run asks for a flush where the current context is main. -/
theorem finish_asks (r : Run) : Asks e ⟨r, Rules.finishPlan, []⟩
    (if r.context.isMain then [.flush] else []) (after finish pure [] r) := by
  have hlook : e.next ⟨r, Rules.finishPlan, []⟩ =
      some ⟨r, if r.context.isMain then .perform .flush else pure (), []⟩ := rfl
  rw [after, finish, Effect.get_bind]
  cases hmain : r.context.isMain with
  | false =>
    simp only [hmain] at hlook
    exact .next hlook .refl
  | true =>
    simp only [hmain] at hlook
    refine .next hlook (.next ?_ .refl)
    simp only [next, Plan.perform, Instruction.apply]
    cases r.sink.flush <;> rfl

/-- What is asked for after the template of a whole run has come to `result`: a flush, when it was
processed and the request is main. -/
def closing (q : Request) : Except Error Unit → List Demand
  | .ok () => if q.isMain then [.flush] else []
  | .error _ => []

/-- The result of a whole run whose template has come to its end. -/
def closed (q : Request) : Except Error Unit × Run → Except Error Report × Sink
  | (.error err, s) => (.error err, s.sink)
  | (.ok (), s) =>
    if q.isMain then
      match s.sink.flush with
      | .ok after => (.ok s.report, after)
      | .error cause => (.error (.outputUnwritable q.output cause), s.sink)
    else (.ok s.report, s.sink)

/-- The context of a whole run is that of its request, wherever the run has come to. -/
theorem begin_frame {q : Request} {now : Moment} {sink : Sink}
    (h : Frame .template (e.begin q now sink) s) :
    s.context.isMain = q.isMain ∧ s.arena.root.output = q.output := by
  have hbegin := Context.SameCall.applyAll
    (Arena.ofRoot q.template q.output q.business q.isMain now).root (e.requestSetup q)
  exact ⟨h.sameCall.isMain.trans hbegin.isMain, h.rootOutput.trans hbegin.output⟩

/-- The end of a whole run flushes the sink of a main request. -/
theorem finish_closed {q : Request} (hmain : s.context.isMain = q.isMain)
    (houtput : s.arena.root.output = q.output) :
    ((finish s).1.map fun _ => (finish s).2.report, (finish s).2.sink) = closed q (.ok (), s) := by
  rw [closed, finish, Effect.get_bind, hmain]
  cases q.isMain with
  | false => rfl
  | true =>
    cases hflush : s.sink.flush with
    | ok after => rfl
    | error cause =>
      show (Except.error (s.unwritable cause), s.sink) = (Except.error _, s.sink)
      rw [Run.unwritable, houtput]

/-- A whole run has the result that its end has. -/
theorem outcome_after (x : Gen Unit) (r : Run) :
    (after x pure [] r).outcome = some ((x r).1.map fun _ => (x r).2.report) := by
  rw [after]
  rcases x r with ⟨err | _, s⟩ <;> rfl

/-- A whole run is its template and what follows from how that came to its end. -/
theorem run_closed (e : Engine) (q : Request) (source : Source) (now : Moment) (sink : Sink) :
    e.run q source now sink =
      closed q (processSource e (callAtDepth e) source (e.begin q now sink)) := by
  have hdoes := processSource_does (call_does e e.limits.maxDepth) source (e.begin q now sink)
  obtain ⟨hmain, houtput⟩ := begin_frame hdoes.frame
  rw [run, session, Effect.bind_eq, ← begin_callAtDepth]
  revert hmain houtput
  rcases processSource e (call e e.limits.maxDepth) source (e.begin q now sink) with ⟨err | _, s⟩
  · exact fun _ _ => rfl
  · exact finish_closed

/-- As long as the template of a whole run is processed the sink is not flushed. -/
theorem processSource_flushes (e : Engine) (q : Request) (source : Source) (now : Moment)
    (sink : Sink) :
    (processSource e (callAtDepth e) source (e.begin q now sink)).2.sink.flushes =
      sink.flushes := by
  rw [← begin_callAtDepth]
  have hdoes := processSource_does (call_does e e.limits.maxDepth) source (e.begin q now sink)
  have hsink := congrArg Sink.flushes hdoes.sink
  exact hsink

/-- **A run flushes once, at the end.** It asks its sink to take some lines, whatever templates it
calls, and then for one flush if its template was processed and the request is main; it asks for
nothing else. As long as the template is processed the sink is not flushed, and the flush leaves
the report as it is, or is the failure of the run. -/
theorem run_flushes_last (e : Engine) (q : Request) (source : Source) (now : Moment)
    (sink : Sink) :
    let processed := processSource e (call e e.limits.maxDepth) source (e.begin q now sink)
    (∃ (lines : List String) (g : Stage),
      Asks e (e.start q source now sink) (lines.map .write ++ closing q processed.1) g ∧
      g.outcome = some (e.run q source now sink).1 ∧
      ∀ ds h, Asks e (e.start q source now sink) ds h → e.next h = none →
        ds = lines.map .write ++ closing q processed.1 ∧ h = g) ∧
    processed.2.sink.flushes = sink.flushes ∧
    e.run q source now sink = closed q processed := by
  intro processed
  have hsame : processSource e (callAtDepth e) source (e.begin q now sink) = processed :=
    (begin_callAtDepth e source q now sink).symm
  have hframe : Frame .template (e.begin q now sink) processed.2 :=
    (processSource_does (call_does e _) source _).frame
  have hrun : e.run q source now sink = closed q processed := by rw [run_closed, hsame]
  refine ⟨?_, hsame ▸ processSource_flushes e q source now sink, hrun⟩
  -- the template by itself asks for lines only
  have hgoes := goes_follow (e := e) (e.rules.sourcePlan source) pure [] (e.begin q now sink)
  rw [Plan.bind_done, after, follow_sourcePlan, hsame] at hgoes
  obtain ⟨ds, hasks⟩ := hgoes.asks
  obtain ⟨lines, rfl⟩ := hasks.writes
    ⟨(Rules.unflushed_law e.rules).source source, List.forall_mem_nil _⟩
  -- the end of the run comes after it
  have hall : Asks e (e.start q source now sink) (lines.map .write) _ :=
    hasks.andThen fun _ => Rules.finishPlan
  obtain ⟨g, hg, houtcome⟩ : ∃ g,
      Asks e (e.start q source now sink) (lines.map .write ++ closing q processed.1) g ∧
      g.outcome = some (e.run q source now sink).1 := by
    rw [hrun]
    obtain ⟨hmain, houtput⟩ := begin_frame hframe
    clear_value processed
    obtain ⟨err | _, s⟩ := processed
    · exact ⟨_, hall.trans .refl, rfl⟩
    · refine ⟨after finish pure [] s, hall.trans ?_, ?_⟩
      · rw [closing, ← hmain]
        exact finish_asks s
      · rw [outcome_after, ← finish_closed hmain houtput]
  exact ⟨lines, g, hg, houtcome, fun ds h hasked hlast =>
    hasked.unique hg hlast (next_eq_none_iff.2 ⟨_, houtcome⟩)⟩

end Engine

end Stencil
