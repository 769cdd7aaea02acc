import Stencil.Proofs.Run.Law
import Stencil.Proofs.Run.Stages
import Stencil.Proofs.Schema.Memo
import Stencil.Proofs.Trigger.Local

/-!
# Sub-templates on their own

A template that is called by another one, with triggers that see only their own template, is
processed as it would be in a run of its own. The two runs are followed side by side as `Twins`:
one deep in an arena, with lines written and look-ups made before it began, the other one at its
root and new. They have the same plan, and by `follow_sameEnd` they stay twins as it is followed:
neither what is above the current context, nor the counts of the report, nor the answers in the
memo can be told from the lines that are written.
-/

namespace Stencil

/-! ## Local plans

The plan of a template with local triggers depends on nothing but what they see.
-/

/-- Two runs in which triggers see the same. -/
structure Sight.Same (v v' : Sight) : Prop where
  context : v.context.visible = v'.context.visible
  tables : v.tables = v'.tables

namespace Plan

variable {α β : Type}

/-- The plan goes on in the same way wherever the same is seen, calls no main templates, and leaves
flushing to the end of a whole run. -/
def Local : Plan α → Prop
  | done _ => True
  | fail _ => True
  | look k => (∀ v v', Sight.Same v v' → k v = k v') ∧ ∀ v, (k v).Local
  | act i p => i.flushes = false ∧ p.Local
  | fields _ k => ∀ fs, (k fs).Local
  | call _ isMain _ p => isMain = false ∧ p.Local

theorem Local.bind {p : Plan α} {f : α → Plan β} (hp : p.Local) (hf : ∀ v, (f v).Local) :
    (p >>= f).Local := by
  show (p.bind f).Local
  induction p with
  | done v => exact hf v
  | fail err => trivial
  | look k ih =>
    exact ⟨fun v v' hsame => congrArg (Plan.bind · f) (hp.1 v v' hsame), fun v => ih v (hp.2 v)⟩
  | act i p ih => exact ⟨hp.1, ih hp.2⟩
  | fields b k ih => exact fun fs => ih fs (hp fs)
  | call t m s p ih => exact ⟨hp.1, ih hp.2⟩

theorem local_pure (v : α) : (pure v : Plan α).Local := trivial

theorem local_perform {i : Instruction} (hi : i.flushes = false) : (perform i).Local := ⟨hi, trivial⟩

end Plan

theorem Action.Local.plan {α : Type} {a : Action α} (h : a.Local) : a.plan.Local := by
  induction a with
  | done | fail => trivial
  | context k ih =>
    refine ⟨fun v v' hsame => ?_, fun v => ih v.context (h.2 v.context)⟩
    simp only [h.1 v.context, hsame.context, ← h.1 v'.context]
  | ancestry | live | limits | report => exact h.elim
  | tables k ih =>
    refine ⟨fun v v' hsame => ?_, fun v => ih v.tables (h v.tables)⟩
    simp only [hsame.tables]
  | fields b k ih => exact fun fs => ih fs (h fs)
  | change c k ih | write l k ih => exact ⟨rfl, ih h⟩
  | call t m s k ih => exact ⟨h.1, ih h.2⟩

namespace Rules

open Plan Engine

variable {u : Rules}

/-- Rules whose triggers are local. -/
def Local (u : Rules) : Prop := ∀ name t, u.find? name = some t → t.Local

/-- Plans with local triggers are local. -/
theorem local_law (hu : u.Local) : Law u fun _ p _ _ => p.Local where
  done v _ := local_pure v
  fail _ _ _ := trivial
  perform hi _ _ := local_perform hi
  action found ps _ := (hu _ _ found ps).plan
  bind := .bind
  mono h _ := h

end Rules

/-! ## Sinks that go on -/

/-- The sink `s` has taken the lines `before` and then those of `s'`, and takes as many further ones
as `s'` does, which is ready to be flushed. -/
structure Sink.Continues (before : Array String) (s s' : Sink) : Prop where
  lines : s.lines = before ++ s'.lines
  limit : s'.limit = s.limit.map fun l => (l.1 - before.size, l.2)
  flushFailure : s'.flushFailure = none

/-- Both sinks take a line, or both refuse it. -/
theorem Sink.Continues.write {before : Array String} {s s' : Sink} (h : Continues before s s')
    (line : String) :
    (∃ t t', s.write line = .ok t ∧ s'.write line = .ok t' ∧ Continues before t t') ∨
      ∃ cause, s.write line = .error cause ∧ s'.write line = .error cause := by
  have hsize : s.lines.size = before.size + s'.lines.size := by
    rw [h.lines, Array.size_append]
  have hwritten : Continues before { s with lines := s.lines.push line }
      { s' with lines := s'.lines.push line } := by
    refine ⟨?_, h.limit, h.flushFailure⟩
    rw [h.lines, Array.append_push]
  have hlimit := h.limit
  cases hbound : s.limit with
  | none =>
    rw [hbound, Option.map_none] at hlimit
    exact .inl ⟨_, _, by rw [Sink.write, hbound], by rw [Sink.write, hlimit], hwritten⟩
  | some l =>
    rw [hbound, Option.map_some] at hlimit
    by_cases hfull : l.1 ≤ s.lines.size
    · have hfull' : l.1 - before.size ≤ s'.lines.size := by omega
      exact .inr ⟨l.2, by simp [Sink.write, hbound, hfull], by simp [Sink.write, hlimit, hfull']⟩
    · have hfull' : ¬ l.1 - before.size ≤ s'.lines.size := by omega
      exact .inl ⟨_, _, by simp [Sink.write, hbound, hfull], by simp [Sink.write, hlimit, hfull'],
        hwritten⟩

/-! ## Twins -/

/-- In both runs the current context is live, and the same is visible of it. That of `r'` stands at
`depth`, and that of `r` is `gap` levels deeper. -/
structure SameView (gap depth : Nat) (r r' : Run) : Prop where
  live : r.current < r.arena.size
  live' : r'.current < r'.arena.size
  visible : r.context.visible = r'.context.visible
  deep : r.context.depth = depth + gap
  shallow : r'.context.depth = depth

/-- The run `r` goes on with the output of `r'`, after the lines `before`, and both memos answer as
the provider does. -/
structure SameEffect (p : Provider) (before : Array String) (r r' : Run) : Prop where
  faithful : r.memo.Faithful p
  faithful' : r'.memo.Faithful p
  sink : Sink.Continues before r.sink r'.sink

/-- Two runs that differ in nothing but how deep they stand, in what was written before, and in
what cannot be seen. -/
structure Twins (p : Provider) (before : Array String) (gap depth : Nat) (r r' : Run) : Prop where
  view : SameView gap depth r r'
  effect : SameEffect p before r r'

section

variable {p : Provider} {before : Array String} {gap depth : Nat} {r r' s s' : Run}

theorem SameView.mapContext {f : Context → Context} (h : SameView gap depth r r')
    (hvisible : ∀ c, (f c).visible = f c.visible) (hdepth : ∀ c, (f c).depth = c.depth) :
    SameView gap depth (r.mapContext f) (r'.mapContext f) := by
  have hcontext : (r.mapContext f).context = f r.context := Arena.get_modify_self h.live
  have hcontext' : (r'.mapContext f).context = f r'.context := Arena.get_modify_self h.live'
  refine ⟨?_, ?_, ?_, ?_, ?_⟩
  · exact (Arena.size_modify _ _ _).symm ▸ h.live
  · exact (Arena.size_modify _ _ _).symm ▸ h.live'
  · rw [hcontext, hcontext', hvisible, hvisible, h.visible]
  · rw [hcontext, hdepth, h.deep]
  · rw [hcontext', hdepth, h.shallow]

/-- Where the contexts are the former ones, the same is visible again. -/
theorem SameView.of_eq (h : SameView gap depth r r')
    (hs : s.arena = r.arena ∧ s.current = r.current)
    (hs' : s'.arena = r'.arena ∧ s'.current = r'.current) : SameView gap depth s s' := by
  have hcontext : s.context = r.context := by rw [Run.context, hs.1, hs.2, Run.context]
  have hcontext' : s'.context = r'.context := by rw [Run.context, hs'.1, hs'.2, Run.context]
  refine ⟨?_, ?_, ?_, ?_, ?_⟩
  · rw [hs.1, hs.2]
    exact h.live
  · rw [hs'.1, hs'.2]
    exact h.live'
  · rw [hcontext, hcontext', h.visible]
  · rw [hcontext, h.deep]
  · rw [hcontext', h.shallow]

theorem SameView.table (h : SameView gap depth r r') : r.context.table = r'.context.table := by
  show r.context.visible.table = r'.context.visible.table
  rw [h.visible]

/-- Where memos and sinks are the former ones, the effect still is the same. -/
theorem SameEffect.of_eq (h : SameEffect p before r r') (hs : s.memo = r.memo ∧ s.sink = r.sink)
    (hs' : s'.memo = r'.memo ∧ s'.sink = r'.sink) : SameEffect p before s s' := by
  refine ⟨?_, ?_, ?_⟩
  · rw [hs.1]
    exact h.faithful
  · rw [hs'.1]
    exact h.faithful'
  · rw [hs.2, hs'.2]
    exact h.sink

/-- A change to what is visible of the current contexts. -/
theorem Twins.mapContext {f : Context → Context} (h : Twins p before gap depth r r')
    (hvisible : ∀ c, (f c).visible = f c.visible) (hdepth : ∀ c, (f c).depth = c.depth) :
    Twins p before gap depth (r.mapContext f) (r'.mapContext f) :=
  ⟨h.view.mapContext hvisible hdepth, h.effect.of_eq ⟨rfl, rfl⟩ ⟨rfl, rfl⟩⟩

/-- Reports are not seen. -/
theorem Twins.withReport (h : Twins p before gap depth r r') (report report' : Report) :
    Twins p before gap depth { r with report } { r' with report := report' } :=
  ⟨h.view.of_eq ⟨rfl, rfl⟩ ⟨rfl, rfl⟩, h.effect.of_eq ⟨rfl, rfl⟩ ⟨rfl, rfl⟩⟩

/-- What is visible of the context of a sub-template. -/
theorem visible_enter (template : String) (setup : List Change) (r : Run) :
    (Engine.enter template false setup r).context.visible =
      Context.applyAll { r.context.visible with template, line := 0, token := none, column := 0 }
        setup := by
  show ((r.arena.push _).get r.arena.size).visible = _
  rw [Arena.get_push_size, Context.visible_applyAll]
  rfl

/-- Twins that call a sub-template are twins at its beginning. -/
theorem Twins.enter (h : Twins p before gap depth r r') (template : String)
    (setup : List Change) : Twins p before gap (depth + 1) (Engine.enter template false setup r)
      (Engine.enter template false setup r') := by
  refine ⟨⟨Engine.enter_live .., Engine.enter_live .., ?_, ?_, ?_⟩,
    h.effect.of_eq ⟨rfl, rfl⟩ ⟨rfl, rfl⟩⟩
  · rw [visible_enter, visible_enter, h.view.visible]
  · rw [Engine.enter_depth, h.view.deep, Nat.add_right_comm]
  · rw [Engine.enter_depth, h.view.shallow]

end

/-! ## Plans followed by twins -/

/-- Two computations that both fail, or come to the same value, and leave twins. -/
structure SameEnd (p : Provider) (before : Array String) (gap depth : Nat) {α : Type}
    (x x' : Except Error α × Run) : Prop where
  result : x.1.toOption = x'.1.toOption
  twins : Twins p before gap depth x.2 x'.2

/-- The engine for what lies some levels deeper, seen as though that were the root. -/
def Engine.below (e : Engine) (levels : Nat) : Engine :=
  { e with limits := { e.limits with maxDepth := e.limits.maxDepth - levels } }

namespace Engine

variable {e : Engine} {p : Provider} {before : Array String} {gap depth : Nat} {r r' : Run}
  {α β : Type}

theorem sameEnd_bind {x x' : Gen α} {f f' : α → Gen β}
    (hx : SameEnd p before gap depth (x r) (x' r'))
    (hf : ∀ v s s', Twins p before gap depth s s' →
      SameEnd p before gap depth (f v s) (f' v s')) :
    SameEnd p before gap depth ((x >>= f) r) ((x' >>= f') r') := by
  rw [Effect.bind_eq, Effect.bind_eq]
  revert hx
  generalize x r = y, x' r' = y'
  rintro ⟨hresult, htwins⟩
  obtain ⟨err | v, s⟩ := y
  · obtain ⟨err' | v', s'⟩ := y'
    · exact ⟨rfl, htwins⟩
    · cases hresult
  · obtain ⟨err' | v', s'⟩ := y'
    · cases hresult
    · cases hresult
      exact hf v s s' htwins

/-- Twins follow an instruction alike. -/
theorem instruction_sameEnd (h : Twins p before gap depth r r') {i : Instruction}
    (hi : i.flushes = false) : SameEnd p before gap depth (i.follow r) (i.follow r') := by
  cases i with
  | beginLine number =>
    exact ⟨rfl, (h.withReport _ _).mapContext (fun _ => rfl) fun _ => rfl⟩
  | beginPass | noteUnknown t | noteRunaway text => exact ⟨rfl, h.withReport _ _⟩
  | showToken text column => exact ⟨rfl, h.mapContext (fun _ => rfl) fun _ => rfl⟩
  | hideToken => exact ⟨rfl, h.mapContext (fun _ => rfl) fun _ => rfl⟩
  | change c =>
    exact ⟨rfl, h.mapContext (fun d => d.visible_apply c)
      fun d => (Context.SameCall.apply d c).1.depth⟩
  | write line =>
    simp only [Instruction.follow, Instruction.apply]
    obtain ⟨t, t', ht, ht', hsink⟩ | ⟨cause, ht, ht'⟩ := h.effect.sink.write line
    · rw [ht, ht']
      exact ⟨rfl, h.view.of_eq ⟨rfl, rfl⟩ ⟨rfl, rfl⟩,
        ⟨h.effect.faithful, h.effect.faithful', hsink⟩⟩
    · rw [ht, ht']
      exact ⟨rfl, h⟩
  | flush => cases hi

/-- Twins find the same fields. -/
theorem tableFields_sameEnd (hp : e.schema.CaseBlind) (h : Twins e.schema before gap depth r r')
    (keysOnly : Bool) : SameEnd e.schema before gap depth (e.tableFields keysOnly r)
      ((e.below gap).tableFields keysOnly r') := by
  rw [tableFields, tableFields, Effect.get_bind, Effect.get_bind, h.view.table]
  cases r'.context.table with
  | none => exact ⟨rfl, h⟩
  | some b =>
    obtain ⟨table, index, fields⟩ := b
    cases fields with
    | some fs => exact ⟨rfl, h⟩
    | none =>
      obtain ⟨hanswer, hfaithful⟩ := h.effect.faithful.lookup hp table keysOnly
      obtain ⟨hanswer', hfaithful'⟩ := h.effect.faithful'.lookup hp table keysOnly
      have hsame := hanswer.trans hanswer'.symm
      have htwins (report report' : Report) : Twins e.schema before gap depth
          { r with memo := (r.memo.lookup e.schema table keysOnly).2, report }
          { r' with memo := (r'.memo.lookup e.schema table keysOnly).2, report := report' } :=
        ⟨h.view.of_eq ⟨rfl, rfl⟩ ⟨rfl, rfl⟩, hfaithful, hfaithful', h.effect.sink⟩
      simp only [show (e.below gap).schema = e.schema from rfl]
      cases hl : (r.memo.lookup e.schema table keysOnly).1 with
      | ok fs =>
        rw [hl] at hsame
        simp only [Effect.eq_ok_of_toOption hsame.symm]
        exact ⟨rfl, htwins _ _⟩
      | error err =>
        rw [hl] at hsame
        cases hl' : (r'.memo.lookup e.schema table keysOnly).1 with
        | ok fs =>
          rw [hl'] at hsame
          cases hsame
        | error err' => exact ⟨rfl, htwins _ _⟩

/-- Calls made by twins that stand at `depth` end alike. -/
def CallsAlike (e : Engine) (before : Array String) (gap depth : Nat) : Prop :=
  ∀ (template : String) (setup : List Change) (r r' : Run),
    Twins e.schema before gap depth r r' →
      SameEnd e.schema before gap depth (callAtDepth e template false setup r)
        (callAtDepth (e.below gap) template false setup r')

/-- Twins follow a local plan alike when their calls end alike. -/
theorem follow_sameEnd (hp : e.schema.CaseBlind) (hcalls : CallsAlike e before gap depth)
    {q : Plan α} (hq : q.Local) (h : Twins e.schema before gap depth r r') :
    SameEnd e.schema before gap depth (q.follow e (callAtDepth e) r)
      (q.follow (e.below gap) (callAtDepth (e.below gap)) r') := by
  induction q generalizing r r' with
  | done v => exact ⟨rfl, h⟩
  | fail err => exact ⟨rfl, h⟩
  | look k ih =>
    have hsame : Sight.Same (e.sight r) ((e.below gap).sight r') := ⟨h.view.visible, rfl⟩
    rw [Plan.follow, Plan.follow, Effect.get_bind, Effect.get_bind, hq.1 _ _ hsame]
    exact ih _ (hq.2 _) h
  | act i q ih =>
    exact sameEnd_bind (instruction_sameEnd h hq.1) fun _ s s' hs => ih hq.2 hs
  | fields b k ih =>
    exact sameEnd_bind (tableFields_sameEnd hp h b) fun fs s s' hs => ih fs (hq fs) hs
  | call t m c q ih =>
    obtain ⟨rfl, hq⟩ := hq
    exact sameEnd_bind (hcalls t c r r' h) fun _ s s' hs => ih hq hs

/-- Twins process a template alike when their calls end alike. -/
theorem processSource_sameEnd (hp : e.schema.CaseBlind) (hlocal : e.registry.Local)
    (hcalls : CallsAlike e before gap depth) (source : Source)
    (h : Twins e.schema before gap depth r r') :
    SameEnd e.schema before gap depth (processSource e (callAtDepth e) source r)
      (processSource (e.below gap) (callAtDepth (e.below gap)) source r') := by
  have hfollow := follow_sameEnd hp hcalls ((Rules.local_law (u := e.rules) hlocal).source source) h
  rwa [follow_sourcePlan, show e.rules = (e.below gap).rules from rfl, follow_sourcePlan] at hfollow

/-- Calls made by twins end alike, since twins are one level deeper in the template that is called,
where less room is left. -/
theorem callsAlike (hp : e.schema.CaseBlind) (hlocal : e.registry.Local) (depth : Nat) :
    CallsAlike e before gap depth := by
  intro template setup r r' h
  have hlimit : (e.below gap).limits.maxDepth = e.limits.maxDepth - gap := rfl
  have hdeep := h.view.deep
  have hshallow := h.view.shallow
  rw [callAtDepth_eq, callAtDepth_eq]
  by_cases hrefused : e.limits.maxDepth < r.context.depth + 1
  · rw [if_pos hrefused, if_pos (by omega)]
    exact ⟨rfl, h⟩
  · rw [if_neg hrefused, if_neg (by omega)]
    rw [show (e.below gap).store = e.store from rfl]
    cases hstore : e.store template with
    | error err => exact ⟨rfl, h⟩
    | ok source =>
      have hinner := processSource_sameEnd hp hlocal (callsAlike hp hlocal (depth + 1)) source
        (h.enter template setup)
      have hframe := callAtDepth_frame e template false setup r
      have hframe' := callAtDepth_frame (e.below gap) template false setup r'
      rw [callAtDepth_eq, if_neg hrefused, hstore] at hframe
      rw [callAtDepth_eq, if_neg (by omega), show (e.below gap).store = e.store from rfl, hstore]
        at hframe'
      exact ⟨hinner.result, h.view.of_eq hframe hframe',
        hinner.twins.effect.of_eq ⟨rfl, rfl⟩ ⟨rfl, rfl⟩⟩
termination_by e.limits.maxDepth - depth

/-! ## The memo of a run -/

/-- Instructions do not look up fields. -/
theorem apply_memo {i : Instruction} (hi : i.apply r = .ok r') : r'.memo = r.memo := by
  cases i with
  | write line =>
    obtain ⟨sink, -, rfl⟩ := Instruction.apply_write hi
    rfl
  | flush =>
    obtain ⟨sink, -, rfl⟩ := Instruction.apply_flush hi
    rfl
  | beginLine | beginPass | noteUnknown | noteRunaway | showToken | hideToken | change =>
    cases hi
    rfl

/-- No move puts into the memo what the provider does not answer. -/
theorem Move.faithful (hp : e.schema.CaseBlind) (h : Move e r r') (hr : r.memo.Faithful e.schema) :
    r'.memo.Faithful e.schema := by
  cases h with
  | rest => exact hr
  | act i hi =>
    rw [apply_memo hi]
    exact hr
  | answered table keysOnly => exact (hr.lookup hp table keysOnly).2
  | fallback table keysOnly => exact (hr.lookup hp table keysOnly).2
  | enter | leave => exact hr

/-! ## Runs of sub-templates on their own -/

end Engine

/-- The context of a whole run of a template, with the business values, the table, the slots and
the starting time of `c`. -/
def Arena.ofCaller (c : Context) (template output : String) (isMain : Bool) : Arena :=
  (Arena.ofRoot template output c.business isMain c.startedAt).modify 0 fun root =>
    { root with table := c.table, slots := c.slots }

/-- An empty sink that takes as many lines as `s` still takes. -/
def Sink.remaining (s : Sink) : Sink where
  limit := s.limit.map fun l => (l.1 - s.lines.size, l.2)

/-- A new run of a template, whose context is that of a whole run and has the values of the current
context of `r`. -/
def Run.alone (r : Run) (template output : String) (isMain : Bool) : Run where
  arena := .ofCaller r.context template output isMain
  current := 0
  memo := .empty
  report := {}
  sink := r.sink.remaining

namespace Engine

variable {e : Engine} {r : Run}

/-- A sub-template and the run of it on its own begin as twins. -/
theorem alone_twins (hr : r.memo.Faithful e.schema) (template output : String) (isMain : Bool) :
    Twins e.schema r.sink.lines (r.context.depth + 1) 0 (enter template false [] r)
      (r.alone template output isMain) := by
  refine ⟨⟨enter_live .., Arena.size_pos _, ?_, ?_, rfl⟩, hr, Memo.faithful_empty _, ?_, rfl, rfl⟩
  · rw [visible_enter]
    rfl
  · rw [enter_depth, Nat.zero_add]
  · exact Array.append_empty.symm

/-- A run that takes no flush amiss ends as its template does. -/
theorem session_of_flushFailure (e : Engine) (source : Source) (r : Run)
    (hroot : r.context.depth = 0)
    (hflush : (processSource e (callAtDepth e) source r).2.sink.flushFailure = none) :
    (session e source r).1 = (processSource e (callAtDepth e) source r).1 ∧
      (session e source r).2.sink.lines =
        (processSource e (callAtDepth e) source r).2.sink.lines := by
  have hsame := processSource_callAtDepth (Nat.zero_add e.limits.maxDepth) source hroot
  rw [session, Effect.bind_eq, hsame]
  revert hflush
  generalize processSource e (callAtDepth e) source r = y
  intro hflush
  obtain ⟨err | _, s⟩ := y
  · exact ⟨rfl, rfl⟩
  · have hflush : s.sink.flushFailure = none := hflush
    simp only [finish, Effect.get_bind, Sink.flush, hflush]
    cases s.context.isMain <;> exact ⟨rfl, rfl⟩

/-- **A sub-template is a run of its own.** For the triggers of both backends and a schema that is
given as data or absent: wherever in a run a template of the store is called, and whatever has
happened before, it writes the lines that it writes in a whole run of its own, in which the context
has the values of its caller's and only the nesting that is left is allowed; and it fails just where
that run fails. -/
theorem subTemplate_alone (b : Backend) (hregistry : e.registry = b.registry)
    (hschema : e.schema = .absent ∨ ∃ s : Schema, e.schema = s.provider) (q : Request)
    (source : Source) (now : Moment) (sink : Sink) (g : Stage)
    (hgoes : Goes e (e.start q source now sink) g)
    (hroom : g.run.context.depth + 1 ≤ e.limits.maxDepth) (template : String) (text : Source)
    (hfound : e.store template = .ok text) (output : String) (isMain : Bool) :
    let included := callAtDepth e template false [] g.run
    let alone := session (e.below (g.run.context.depth + 1)) text
      (g.run.alone template output isMain)
    included.2.sink.lines = g.run.sink.lines ++ alone.2.sink.lines ∧
      (included.1 = .ok () ↔ alone.1 = .ok ()) := by
  intro included alone
  have hp : e.schema.CaseBlind := by
    obtain h | ⟨s, h⟩ := hschema
    · exact h ▸ Provider.absent_caseBlind
    · exact h ▸ s.provider_caseBlind
  have hlocal : e.registry.Local := hregistry ▸ b.registry_local
  have hmemo : g.run.memo.Faithful e.schema :=
    hgoes.invariant (fun _ _ hmove => hmove.faithful hp) (Memo.faithful_empty _)
  have hend := processSource_sameEnd hp hlocal (callsAlike hp hlocal 0) text
    (alone_twins hmemo template output isMain)
  obtain ⟨hresult, hlines⟩ := session_of_flushFailure (e.below (g.run.context.depth + 1)) text
    (g.run.alone template output isMain) rfl hend.twins.effect.sink.flushFailure
  have hincluded : included = framed (enter template false [])
      (leave g.run.current g.run.arena.size) (processSource e (callAtDepth e) text) g.run := by
    show callAtDepth e template false [] g.run = _
    rw [callAtDepth_eq, if_neg (by omega), hfound]
  refine ⟨?_, ?_⟩
  · show included.2.sink.lines = _ ++ (session _ text _).2.sink.lines
    rw [hincluded, hlines]
    exact hend.twins.effect.sink.lines
  · show included.1 = _ ↔ (session _ text _).1 = _
    rw [hincluded, hresult]
    have hsame := hend.result
    constructor
    · intro hok
      exact Effect.eq_ok_of_toOption (hsame.symm.trans (congrArg Except.toOption hok))
    · intro hok
      exact Effect.eq_ok_of_toOption (hsame.trans (congrArg Except.toOption hok))

/-- An engine with one table and one template, which lists the columns of the bound table. -/
def columnLister : Engine where
  registry := Backend.cobol.registry
  schema := (Schema.ofTables
    [{ name := "RATE", index := 1, fields := [{ column := "ID", isKey := true },
      { column := "AMT" }] }]).provider
  store t := if t = "list" then .ok ⟨[⟨1, "&SELCOLS|"⟩], none⟩
    else .error (.templateNotFound t .notFound)
  limits := {}

/-- A request that binds the table. -/
def rateRequest : Request where
  template := "t"
  output := "o"
  insuranceLine := ""
  processType := ""
  table := some "rate"

/-- Called after a first line, the template writes the columns, as it does on its own. -/
theorem columnLister_alone : ∃ g,
    Goes columnLister (columnLister.start rateRequest ⟨[⟨1, "HEAD"⟩], none⟩ ⟨0⟩ {}) g ∧
    g.run.sink.lines = #["HEAD"] ∧
    (callAtDepth columnLister "list" false [] g.run).2.sink.lines = #["HEAD", "ID,", "AMT"] ∧
    let included := callAtDepth columnLister "list" false [] g.run
    let alone := session (columnLister.below (g.run.context.depth + 1)) ⟨[⟨1, "&SELCOLS|"⟩], none⟩
      (g.run.alone "list" "o" true)
    included.2.sink.lines = g.run.sink.lines ++ alone.2.sink.lines ∧
      (included.1 = .ok () ↔ alone.1 = .ok ()) := by
  -- the line is begun, and then written
  have hgoes : Goes columnLister (columnLister.start rateRequest ⟨[⟨1, "HEAD"⟩], none⟩ ⟨0⟩ {}) _ :=
    .trans (.ofNext rfl) (.ofNext rfl)
  exact ⟨_, hgoes, rfl, by decide +kernel, subTemplate_alone .cobol rfl (.inr ⟨_, rfl⟩)
    rateRequest _ _ _ _ hgoes (by decide) "list" _ rfl "o" true⟩

end Engine

end Stencil
