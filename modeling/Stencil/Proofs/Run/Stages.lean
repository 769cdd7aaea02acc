import Mathlib.Logic.Relation
import Stencil.Proofs.Run.Frame
import Stencil.Proofs.Run.Plan

/-!
# Runs stage by stage

A stage of a run is its state, the plan that is still to be followed, and the templates that wait
for the sub-template they called. `next` takes a run from one stage to the following one; nothing
bounds it but the comparison of a call's depth with the limit. The rules of `Advance` are all the
ways in which one stage follows another (`next_eq_some_iff`), and those of `Move` all that can
happen to the state, so that an invariant of whole runs needs one case for each rule. `goes_follow`
says that a plan is followed to its end, however deep its calls nest, and `goes_last` that a whole
run comes to a last stage with the result of `run`.
-/

namespace Stencil

/-- A template that waits for its sub-template: what it will go on with, and the places of its
context and of that of the sub-template. -/
structure Waiting where
  rest : Plan Unit
  caller : Nat
  child : Nat

/-- A stage of a run. -/
structure Stage where
  run : Run
  /-- What is left to do for the current template. -/
  plan : Plan Unit
  /-- The callers of the current template, the nearest one first. -/
  waiting : List Waiting

/-- The result of a run at its last stage. -/
def Stage.outcome (g : Stage) : Option (Except Error Report) :=
  match g.plan, g.waiting with
  | .done (), [] => some (.ok g.run.report)
  | .fail err, [] => some (.error err)
  | _, _ => none

namespace Engine

/-! ## Stages -/

/-- The stage after a stage; none after the last one. -/
def next (e : Engine) (g : Stage) : Option Stage :=
  match g.plan with
  | .done () =>
    match g.waiting with
    | [] => none
    | w :: ws => some ⟨leave w.caller w.child g.run, w.rest, ws⟩
  | .fail err =>
    match g.waiting with
    | [] => none
    | w :: ws => some ⟨leave w.caller w.child g.run, .fail err, ws⟩
  | .look k => some { g with plan := k (e.sight g.run) }
  | .act i p =>
    match i.apply g.run with
    | .ok s => some { g with run := s, plan := p }
    | .error err => some { g with plan := .fail err }
  | .fields b k =>
    match e.tableFields b g.run with
    | (.ok fs, s) => some { g with run := s, plan := k fs }
    | (.error err, s) => some { g with run := s, plan := .fail err }
  | .call template isMain setup p =>
    if e.limits.maxDepth < g.run.context.depth + 1 then
      some { g with plan := .fail (.nestingTooDeep e.limits.maxDepth template) }
    else
      match e.store template with
      | .error err => some { g with plan := .fail err }
      | .ok source =>
        some ⟨enter template isMain setup g.run, e.rules.sourcePlan source,
          ⟨p, g.run.current, g.run.arena.size⟩ :: g.waiting⟩

/-- At the run `r` a plan fails with its first step. -/
inductive Fails (e : Engine) (r : Run) : Plan Unit → Error → Prop where
  | refused {i : Instruction} {p : Plan Unit} {err : Error} (refusal : i.apply r = .error err) :
      Fails e r (.act i p) err
  | tooDeep {template : String} {isMain : Bool} {setup : List Change} {p : Plan Unit}
      (deep : e.limits.maxDepth < r.context.depth + 1) :
      Fails e r (.call template isMain setup p) (.nestingTooDeep e.limits.maxDepth template)
  | missing {template : String} {isMain : Bool} {setup : List Change} {p : Plan Unit} {err : Error}
      (room : r.context.depth + 1 ≤ e.limits.maxDepth) (absent : e.store template = .error err) :
      Fails e r (.call template isMain setup p) err

/-- The ways in which a stage is followed by another, each with what decides for it. -/
inductive Advance (e : Engine) : Stage → Stage → Prop where
  /-- A sub-template has come to its end, and its caller goes on. -/
  | returned {r : Run} {w : Waiting} {ws : List Waiting} :
      Advance e ⟨r, .done (), w :: ws⟩ ⟨leave w.caller w.child r, w.rest, ws⟩
  /-- A sub-template has failed, and its caller fails with it. -/
  | aborted {r : Run} {err : Error} {w : Waiting} {ws : List Waiting} :
      Advance e ⟨r, .fail err, w :: ws⟩ ⟨leave w.caller w.child r, .fail err, ws⟩
  | looked {r : Run} {k : Sight → Plan Unit} {ws : List Waiting} :
      Advance e ⟨r, .look k, ws⟩ ⟨r, k (e.sight r), ws⟩
  | acted {r s : Run} {i : Instruction} {p : Plan Unit} {ws : List Waiting}
      (done : i.apply r = .ok s) : Advance e ⟨r, .act i p, ws⟩ ⟨s, p, ws⟩
  /-- Fields are looked up, which never fails. -/
  | answered {r : Run} {keysOnly : Bool} {k : Option (List Field) → Plan Unit}
      {ws : List Waiting} {fs : Option (List Field)}
      (found : (e.tableFields keysOnly r).1 = .ok fs) :
      Advance e ⟨r, .fields keysOnly k, ws⟩ ⟨(e.tableFields keysOnly r).2, k fs, ws⟩
  /-- A sub-template is opened, and its caller begins to wait. -/
  | called {r : Run} {template : String} {isMain : Bool} {setup : List Change} {p : Plan Unit}
      {ws : List Waiting} {source : Source} (room : r.context.depth + 1 ≤ e.limits.maxDepth)
      (found : e.store template = .ok source) :
      Advance e ⟨r, .call template isMain setup p, ws⟩
        ⟨enter template isMain setup r, e.rules.sourcePlan source,
          ⟨p, r.current, r.arena.size⟩ :: ws⟩
  | failed {r : Run} {p : Plan Unit} {err : Error} {ws : List Waiting} (fails : Fails e r p err) :
      Advance e ⟨r, p, ws⟩ ⟨r, .fail err, ws⟩

/-- The stage `g` is followed, sooner or later, by the stage `h`, or is `h`. -/
def Goes (e : Engine) (g h : Stage) : Prop :=
  Relation.ReflTransGen (fun g h => e.next g = some h) g h

/-- The first stage of a run. -/
def start (e : Engine) (q : Request) (source : Source) (now : Moment) (sink : Sink) : Stage :=
  ⟨e.begin q now sink, e.rules.sessionPlan source, []⟩

variable {e : Engine} {g h k : Stage} {r s : Run} {α : Type}

/-- What the rules say follows. -/
theorem Advance.next_eq (hadvance : Advance e g h) : e.next g = some h := by
  cases hadvance with
  | returned | aborted | looked => rfl
  | acted hs => simp only [next, hs]
  | @answered r keysOnly k ws fs hfs =>
    rcases hx : e.tableFields keysOnly r with ⟨_, s⟩
    rw [hx] at hfs
    cases hfs
    simp only [next, hx]
  | called hroom hsource => simp only [next, if_neg (Nat.not_lt_of_le hroom), hsource]
  | failed hfails =>
    cases hfails with
    | refused herr => simp only [next, herr]
    | tooDeep hdeep => exact if_pos hdeep
    | missing hroom herr => simp only [next, if_neg (Nat.not_lt_of_le hroom), herr]

/-- Nothing follows a stage with a result. -/
theorem next_eq_none_of_outcome {result : Except Error Report}
    (houtcome : g.outcome = some result) : e.next g = none := by
  unfold Stage.outcome at houtcome
  split at houtcome
  · next hp hw => simp only [next, hp, hw]
  · next hp hw => simp only [next, hp, hw]
  · cases houtcome

/-- A run has a result at a stage, or it goes on from there. -/
theorem outcome_or_advance (e : Engine) (g : Stage) :
    (∃ result, g.outcome = some result) ∨ ∃ h, Advance e g h := by
  obtain ⟨r, p, ws⟩ := g
  cases p with
  | done v =>
    cases ws with
    | nil => exact .inl ⟨_, rfl⟩
    | cons w ws => exact .inr ⟨_, .returned⟩
  | fail err =>
    cases ws with
    | nil => exact .inl ⟨_, rfl⟩
    | cons w ws => exact .inr ⟨_, .aborted⟩
  | look k => exact .inr ⟨_, .looked⟩
  | act i p =>
    cases hi : i.apply r with
    | ok s => exact .inr ⟨_, .acted hi⟩
    | error err => exact .inr ⟨_, .failed (.refused hi)⟩
  | fields b k => exact .inr ⟨_, .answered (tableFields_result e b r)⟩
  | call t m c p =>
    by_cases hdeep : e.limits.maxDepth < r.context.depth + 1
    · exact .inr ⟨_, .failed (.tooDeep hdeep)⟩
    · have hroom := Nat.le_of_not_lt hdeep
      cases hstore : e.store t with
      | error err => exact .inr ⟨_, .failed (.missing hroom hstore)⟩
      | ok source => exact .inr ⟨_, .called hroom hstore⟩

/-- What follows a stage is what the rules say, and nothing else. -/
theorem next_eq_some_iff : e.next g = some h ↔ Advance e g h := by
  refine ⟨fun hnext => ?_, Advance.next_eq⟩
  obtain ⟨result, houtcome⟩ | ⟨h', hadvance⟩ := outcome_or_advance e g
  · rw [next_eq_none_of_outcome houtcome] at hnext
    cases hnext
  · obtain rfl : h' = h := Option.some.inj (hadvance.next_eq.symm.trans hnext)
    exact hadvance

/-- A stage is the last one just if the run has a result there. -/
theorem next_eq_none_iff : e.next g = none ↔ ∃ result, g.outcome = some result := by
  refine ⟨fun hlast => ?_, fun ⟨result, houtcome⟩ => next_eq_none_of_outcome houtcome⟩
  obtain hresult | ⟨h, hadvance⟩ := outcome_or_advance e g
  · exact hresult
  · rw [hadvance.next_eq] at hlast
    cases hlast

/-! ## Where stages lead -/

theorem Goes.refl : Goes e g g := Relation.ReflTransGen.refl

theorem Goes.trans (hgh : Goes e g h) (hhk : Goes e h k) : Goes e g k :=
  Relation.ReflTransGen.trans hgh hhk

theorem Goes.ofNext (hnext : e.next g = some h) : Goes e g h := Relation.ReflTransGen.single hnext

theorem Goes.ofAdvance (hadvance : Advance e g h) : Goes e g h :=
  .ofNext hadvance.next_eq

/-- Nothing follows the last stage. -/
theorem Goes.eq_of_last (hgoes : Goes e g h) (hlast : e.next g = none) : h = g := by
  cases Relation.ReflTransGen.cases_head hgoes with
  | inl heq => exact heq.symm
  | inr hstep =>
    obtain ⟨g', hnext, -⟩ := hstep
    rw [hlast] at hnext
    cases hnext

/-- The last stage follows all others. -/
theorem Goes.to_last (hgh : Goes e g h) (hgk : Goes e g k) (hlast : e.next k = none) :
    Goes e h k := by
  have hunique : Relator.RightUnique fun g h => e.next g = some h := by
    intro a b c hb hc
    exact Option.some.inj (hb.symm.trans hc)
  rcases Relation.ReflTransGen.total_of_right_unique hunique hgh hgk with hhk | hkh
  · exact hhk
  · have heq := Goes.eq_of_last hkh hlast
    subst heq
    exact .refl

/-! ## What a stage does to the run -/

/-- What may become of a run from one stage to the next. -/
inductive Move (e : Engine) (r : Run) : Run → Prop where
  | rest : Move e r r
  | act {s : Run} (i : Instruction) (done : i.apply r = .ok s) : Move e r s
  /-- The fields of the bound table are looked up and found. -/
  | answered (table : String) (keysOnly : Bool) {fs : List Field}
      (found : (r.memo.lookup e.schema table keysOnly).1 = .ok fs) :
      Move e r { r with memo := (r.memo.lookup e.schema table keysOnly).2 }
  /-- The fields of the bound table are looked up and not found. -/
  | fallback (table : String) (keysOnly : Bool) {err : SchemaError}
      (failed : (r.memo.lookup e.schema table keysOnly).1 = .error err) :
      Move e r { r with
        memo := (r.memo.lookup e.schema table keysOnly).2
        report := { r.report with schemaFallbacks := r.report.schemaFallbacks + 1 } }
  /-- A sub-template is called that is in the store and does not lie too deep. -/
  | enter (template : String) (isMain : Bool) (setup : List Change) {source : Source}
      (room : r.context.depth + 1 ≤ e.limits.maxDepth) (found : e.store template = .ok source) :
      Move e r (enter template isMain setup r)
  | leave (caller child : Nat) : Move e r (leave caller child r)

/-- Looking up fields is a move. -/
theorem tableFields_move (keysOnly : Bool) (r : Run) :
    Move e r (e.tableFields keysOnly r).2 := by
  obtain h | ⟨table, fs, hfound, h⟩ | ⟨table, err, hfailed, h⟩ := tableFields_cases e keysOnly r
  · rw [h]
    exact .rest
  · rw [h]
    exact .answered table keysOnly hfound
  · rw [h]
    exact .fallback table keysOnly hfailed

/-- From one stage to the next the run makes a move. -/
theorem next_move (hnext : e.next g = some h) : Move e g.run h.run := by
  cases next_eq_some_iff.1 hnext with
  | returned | aborted => exact .leave _ _
  | looked | failed => exact .rest
  | acted hs => exact .act _ hs
  | answered => exact tableFields_move _ _
  | called hroom hsource => exact .enter _ _ _ hroom hsource

/-- What all moves respect holds at every stage. -/
theorem Goes.invariant {P : Run → Prop} (hmove : ∀ r s, Move e r s → P r → P s)
    (hgoes : Goes e g h) (hstart : P g.run) : P h.run := by
  induction hgoes with
  | refl => exact hstart
  | tail _ hnext ih => exact hmove _ _ (next_move hnext) ih

/-! ## Following a plan -/

/-- An instruction touches no context but the current one. -/
theorem apply_frame {i : Instruction} (hi : i.apply r = .ok s) : Frame .template r s := by
  cases i with
  | beginLine number =>
    cases hi
    exact beginLine_frame number r
  | beginPass | noteUnknown | noteRunaway =>
    cases hi
    exact .of_eq rfl rfl
  | showToken | hideToken =>
    cases hi
    exact .mapContext (fun _ => ⟨rfl, rfl, rfl, rfl, rfl, rfl, rfl⟩) nofun
  | change c =>
    cases hi
    exact .mapContext (fun d => (Context.SameCall.apply d c).1) nofun
  | write line =>
    obtain ⟨sink, -, rfl⟩ := Instruction.apply_write hi
    exact .of_eq rfl rfl
  | flush =>
    obtain ⟨sink, -, rfl⟩ := Instruction.apply_flush hi
    exact .of_eq rfl rfl

/-- It keeps to its frame when it fails, too. -/
theorem instruction_frame (i : Instruction) (r : Run) : Frame .template r (i.follow r).2 := by
  rw [Instruction.follow]
  cases hi : i.apply r with
  | ok s => exact apply_frame hi
  | error err => exact .refl

theorem tableFields_frame (e : Engine) (keysOnly : Bool) (r : Run) :
    Frame .template r (e.tableFields keysOnly r).2 := by
  obtain h | ⟨_, _, -, h⟩ | ⟨_, _, -, h⟩ := tableFields_cases e keysOnly r <;>
    rw [h] <;> exact .of_eq rfl rfl

/-- The contexts of the waiting templates lie in their places below `size`, each caller under the
sub-template for which it waits. -/
inductive Stacked : (size : Nat) → List Waiting → Prop where
  | nil {size : Nat} : Stacked size []
  | cons {size : Nat} {w : Waiting} {ws : List Waiting} (child : w.child < size)
      (caller : w.caller < w.child) (rest : Stacked w.child ws) : Stacked size (w :: ws)

/-- The current context and those of the waiting templates are live. -/
structure Live (g : Stage) : Prop where
  current : g.run.current < g.run.arena.size
  waiting : Stacked g.run.arena.size g.waiting

/-- What keeps to its frame keeps the contexts live. -/
theorem Frame.stage_live {p p' : Plan Unit} {ws : List Waiting} {scope : Scope}
    (h : Frame scope r s) (hr : Live ⟨r, p, ws⟩) : Live ⟨s, p', ws⟩ := by
  refine ⟨h.live hr.current, ?_⟩
  show Stacked s.arena.size ws
  rw [h.size]
  exact hr.waiting

/-- When the sub-template ends, its caller is current and as live as it was. -/
theorem live_leave {p p' : Plan Unit} {w : Waiting} {ws : List Waiting}
    (hr : Live ⟨r, p, w :: ws⟩) : Live ⟨leave w.caller w.child r, p', ws⟩ := by
  obtain ⟨-, hwaiting⟩ := hr
  cases hwaiting with
  | cons hchild hcaller hrest =>
    have hsize : (r.arena.release w.child).size = w.child :=
      Arena.size_release r.arena (Nat.zero_lt_of_lt hcaller) (Nat.le_of_lt hchild)
    refine ⟨?_, ?_⟩
    · show w.caller < (r.arena.release w.child).size
      rwa [hsize]
    · show Stacked (r.arena.release w.child).size ws
      rwa [hsize]

theorem next_live (hnext : e.next g = some h) (hg : Live g) : Live h := by
  cases next_eq_some_iff.1 hnext with
  | returned | aborted => exact live_leave hg
  | looked | failed => exact ⟨hg.current, hg.waiting⟩
  | acted hs => exact (apply_frame hs).stage_live hg
  | answered => exact (tableFields_frame e _ _).stage_live hg
  | @called r t m c _ ws _ _ _ =>
    refine ⟨enter_live t m c r, .cons ?_ hg.current hg.waiting⟩
    show r.arena.size < (r.arena.push _).size
    rw [Arena.size_push]
    exact Nat.lt_succ_self _

theorem Goes.live (hgoes : Goes e g h) (hg : Live g) : Live h := by
  induction hgoes with
  | refl => exact hg
  | tail _ hnext ih => exact next_live hnext ih

theorem start_live (e : Engine) (q : Request) (source : Source) (now : Moment) (sink : Sink) :
    Live (e.start q source now sink) := ⟨begin_live e q now sink, .nil⟩

/-- A call by depth gives its caller the arena back and makes it current again, -/
theorem callAtDepth_frame (e : Engine) (template : String) (isMain : Bool)
    (setup : List Change) (r : Run) :
    (callAtDepth e template isMain setup r).2.arena = r.arena ∧
      (callAtDepth e template isMain setup r).2.current = r.current :=
  call_frame e (e.limits.maxDepth - r.context.depth) template isMain setup r

/-- so that it leaves the current context as it is. -/
theorem callAtDepth_context (e : Engine) (template : String) (isMain : Bool)
    (setup : List Change) (r : Run) :
    (callAtDepth e template isMain setup r).2.context = r.context := by
  obtain ⟨harena, hcurrent⟩ := callAtDepth_frame e template isMain setup r
  rw [Run.context, harena, hcurrent, Run.context]

/-- The stage at which a computation over the run `r` has come to its end, with `f` to go on. -/
def after (x : Gen α) (f : α → Plan Unit) (ws : List Waiting) (r : Run) : Stage :=
  match x r with
  | (.ok v, s) => ⟨s, f v, ws⟩
  | (.error err, s) => ⟨s, .fail err, ws⟩

theorem after_ok {x : Gen α} {f : α → Plan Unit} {ws : List Waiting} {v : α}
    (hx : x r = (.ok v, s)) : after x f ws r = ⟨s, f v, ws⟩ := by
  rw [after, hx]

theorem after_error {x : Gen α} {f : α → Plan Unit} {ws : List Waiting} {err : Error}
    (hx : x r = (.error err, s)) : after x f ws r = ⟨s, .fail err, ws⟩ := by
  rw [after, hx]

/-- Two computations in a row end where the second one does, unless the first one fails. -/
theorem after_bind {β : Type} (x : Gen β) (y : β → Gen α) (f : α → Plan Unit) (ws : List Waiting)
    (r : Run) : after (x >>= y) f ws r = match x r with
      | (.ok b, s) => after (y b) f ws s
      | (.error err, s) => ⟨s, .fail err, ws⟩ := by
  rw [after, Effect.bind_eq]
  rcases x r with ⟨_ | b, s⟩ <;> rfl

/-- From contexts at the depth `d`, calls come to their end. -/
def CallsEnd (e : Engine) (d : Nat) : Prop :=
  ∀ (template : String) (isMain : Bool) (setup : List Change) (p : Plan Unit)
    (ws : List Waiting) (r : Run), r.context.depth = d →
    Goes e ⟨r, .call template isMain setup p, ws⟩
      (after (callAtDepth e template isMain setup) (fun _ => p) ws r)

/-- A plan is followed to its end when its calls come to theirs. -/
theorem goes_follow_of_callsEnd {d : Nat} (hcalls : CallsEnd e d) (p : Plan α)
    (f : α → Plan Unit) (ws : List Waiting) (r : Run) (hd : r.context.depth = d) :
    Goes e ⟨r, p >>= f, ws⟩ (after (p.follow e (callAtDepth e)) f ws r) := by
  induction p generalizing r with
  | done v => exact .refl
  | fail err => exact .refl
  | look k ih =>
    rw [Plan.follow, after, Effect.get_bind]
    exact .trans (.ofAdvance .looked) (ih (e.sight r) r hd)
  | act i p ih =>
    rw [Plan.follow, after_bind, Instruction.follow]
    cases hi : i.apply r with
    | error err => exact .ofAdvance (.failed (.refused hi))
    | ok s =>
      exact .trans (.ofAdvance (.acted hi)) (ih s ((apply_frame hi).sameCall.depth.trans hd))
  | fields b k ih =>
    have hframe := tableFields_frame e b r
    have hadvance : Advance e ⟨r, .fields b fun fs => k fs >>= f, ws⟩ _ :=
      .answered (tableFields_result e b r)
    rw [Plan.follow, after_bind, ← Prod.eta (e.tableFields b r), tableFields_result]
    exact .trans (.ofAdvance hadvance) (ih _ _ (hframe.sameCall.depth.trans hd))
  | call t m c p ih =>
    have hcall := hcalls t m c (p >>= f) ws r hd
    have hcontext := callAtDepth_context e t m c r
    rw [Plan.follow, after_bind]
    rcases hx : callAtDepth e t m c r with ⟨err | _, s⟩
    · rwa [after_error hx] at hcall
    · rw [after_ok hx] at hcall
      rw [hx] at hcontext
      exact hcall.trans (ih s (hcontext ▸ hd))

/-- Calls come to their end: a template that is called lies one level deeper, where less room is
left, and a call for which there is none fails at once. -/
theorem callsEnd (e : Engine) (d : Nat) : CallsEnd e d := by
  intro t m c p ws r hd
  rw [after, callAtDepth_eq]
  by_cases hdeep : e.limits.maxDepth < r.context.depth + 1
  · rw [if_pos hdeep]
    exact .ofAdvance (.failed (.tooDeep hdeep))
  · rw [if_neg hdeep]
    have hroom := Nat.le_of_not_lt hdeep
    cases hstore : e.store t with
    | error err => exact .ofAdvance (.failed (.missing hroom hstore))
    | ok source =>
      have hbelow := goes_follow_of_callsEnd (callsEnd e (d + 1)) (e.rules.sourcePlan source) pure
        (⟨p, r.current, r.arena.size⟩ :: ws) (enter t m c r) (hd ▸ enter_depth t m c r)
      rw [Plan.bind_done, follow_sourcePlan, after] at hbelow
      refine .trans (.ofAdvance (.called hroom hstore)) (hbelow.trans ?_)
      simp only [framed]
      rcases processSource e (callAtDepth e) source (enter t m c r) with ⟨err | _, s⟩
      · exact .ofAdvance .aborted
      · exact .ofAdvance .returned
termination_by e.limits.maxDepth - d

/-- A plan is followed to its end. -/
theorem goes_follow (p : Plan α) (f : α → Plan Unit) (ws : List Waiting) (r : Run) :
    Goes e ⟨r, p >>= f, ws⟩ (after (p.follow e (callAtDepth e)) f ws r) :=
  goes_follow_of_callsEnd (callsEnd e r.context.depth) p f ws r rfl

/-- What all moves respect holds where a plan has been followed to its end. -/
theorem follow_invariant {P : Run → Prop} (hmove : ∀ r s, Move e r s → P r → P s) (p : Plan α)
    (hr : P r) : P (p.follow e (callAtDepth e) r).2 := by
  have hend : P (after (p.follow e (callAtDepth e)) (fun _ => .done ()) [] r).run :=
    (goes_follow (e := e) p (fun _ => .done ()) [] r).invariant hmove hr
  revert hend
  rw [after]
  rcases p.follow e (callAtDepth e) r with ⟨err | v, s⟩
  · exact id
  · exact id

/-! ## Whole runs -/

/-- A whole run is what comes of following its plan. -/
theorem run_eq_follow (e : Engine) (q : Request) (source : Source) (now : Moment) (sink : Sink) :
    e.run q source now sink =
      let x := (e.rules.sessionPlan source).follow e (callAtDepth e) (e.begin q now sink)
      (x.1.map fun _ => x.2.report, x.2.sink) := by
  rw [follow_sessionPlan, ← session_callAtDepth]
  rfl

/-- A whole run comes to a last stage, at which it has the result of `run`. -/
theorem goes_last (e : Engine) (q : Request) (source : Source) (now : Moment) (sink : Sink) :
    ∃ g, Goes e (e.start q source now sink) g ∧
      g.outcome = some (e.run q source now sink).1 ∧ g.run.sink = (e.run q source now sink).2 := by
  have hgoes := goes_follow (e := e) (e.rules.sessionPlan source) pure [] (e.begin q now sink)
  rw [Plan.bind_done, after] at hgoes
  rw [run_eq_follow]
  revert hgoes
  rcases (e.rules.sessionPlan source).follow e (callAtDepth e) (e.begin q now sink) with
    ⟨err | _, s⟩
  · exact fun hgoes => ⟨⟨s, .fail err, []⟩, hgoes, rfl, rfl⟩
  · exact fun hgoes => ⟨⟨s, .done (), []⟩, hgoes, rfl, rfl⟩

end Engine

end Stencil
