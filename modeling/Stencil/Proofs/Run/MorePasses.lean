import Stencil.Proofs.Run.Law
import Stencil.Proofs.Run.Reported
import Stencil.Proofs.Run.Settle
import Stencil.Proofs.Trigger.Local

/-!
# Runs that are allowed more passes

The number of passes that a line may take matters to the lines that use all of them up, and these
are noted as runaways. Take triggers that look neither at this number nor at what was counted. Where
more passes are allowed, a line that settled settles with the same text: what further passes are
made over it finds no token with a trigger, calls none and changes nothing but the notes
(`settlePlan_refines`). So what a run writes before it notes its first runaway, it also writes with
more passes, and a run that notes none writes the same (`run_more_passes`).
-/

namespace Stencil

/-! ## Triggers that do not look at limits and counts -/

/-- The action reads neither the limits nor the report. -/
def Action.Incurious {α : Type} : Action α → Prop
  | done _ => True
  | fail _ => True
  | context k => ∀ c, (k c).Incurious
  | ancestry k => ∀ ts, (k ts).Incurious
  | live k => ∀ n, (k n).Incurious
  | limits _ => False
  | report _ => False
  | tables k => ∀ ts, (k ts).Incurious
  | fields _ k => ∀ fs, (k fs).Incurious
  | change _ k => k.Incurious
  | write _ k => k.Incurious
  | call _ _ _ k => k.Incurious

/-- A registry of triggers that read neither the limits nor the report. -/
def Registry.Incurious (g : Registry) : Prop :=
  ∀ name t, g.find? name = some t → ∀ ps, (t.resolve ps).Incurious

/-- Triggers that see only their own template do not. -/
theorem Action.Local.incurious {α : Type} {a : Action α} (h : a.Local) : a.Incurious := by
  induction a with
  | done | fail => trivial
  | context k ih => exact fun c => ih c (h.2 c)
  | ancestry | live | limits | report => exact h.elim
  | tables k ih | fields b k ih => exact fun x => ih x (h x)
  | change c k ih | write l k ih => exact ih h
  | call t m s k ih => exact ih h.2

theorem Backend.registry_incurious (b : Backend) : b.registry.Incurious :=
  fun name t h ps => (b.registry_local name t h ps).incurious

/-- Two runs in which triggers see the same but for the limits and the report. -/
structure Sight.SameButCounts (v v' : Sight) : Prop where
  context : v.context = v'.context
  ancestry : v.ancestry = v'.ancestry
  live : v.live = v'.live
  tables : v.tables = v'.tables

namespace Plan

variable {α β : Type}

/-- The plan goes on in the same way whatever the limits and the report are. -/
def Incurious : Plan α → Prop
  | done _ => True
  | fail _ => True
  | look k => (∀ v v', Sight.SameButCounts v v' → k v = k v') ∧ ∀ v, (k v).Incurious
  | act _ p => p.Incurious
  | fields _ k => ∀ fs, (k fs).Incurious
  | call _ _ _ p => p.Incurious

theorem Incurious.bind {p : Plan α} {f : α → Plan β} (hp : p.Incurious)
    (hf : ∀ v, (f v).Incurious) : (p >>= f).Incurious := by
  show (p.bind f).Incurious
  induction p with
  | done v => exact hf v
  | fail err => trivial
  | look k ih =>
    exact ⟨fun v v' hsame => congrArg (Plan.bind · f) (hp.1 v v' hsame), fun v => ih v (hp.2 v)⟩
  | act i p ih => exact ih hp
  | fields b k ih => exact fun fs => ih fs (hp fs)
  | call t m s p ih => exact ih hp

end Plan

theorem Action.Incurious.plan {α : Type} {a : Action α} (h : a.Incurious) : a.plan.Incurious := by
  induction a with
  | done | fail => trivial
  | context k ih =>
    refine ⟨fun v v' hsame => ?_, fun v => ih v.context (h v.context)⟩
    simp only [hsame.context]
  | ancestry k ih =>
    refine ⟨fun v v' hsame => ?_, fun v => ih v.ancestry (h v.ancestry)⟩
    simp only [hsame.ancestry]
  | live k ih =>
    refine ⟨fun v v' hsame => ?_, fun v => ih v.live (h v.live)⟩
    simp only [hsame.live]
  | limits | report => exact h.elim
  | tables k ih =>
    refine ⟨fun v v' hsame => ?_, fun v => ih v.tables (h v.tables)⟩
    simp only [hsame.tables]
  | fields b k ih => exact fun fs => ih fs (h fs)
  | change c k ih | write l k ih => exact ih h
  | call t m s k ih => exact ih h

/-- The plans of templates are incurious where the triggers are. -/
theorem Rules.incurious_law {e : Engine} (he : e.registry.Incurious) :
    Rules.Law e.rules fun _ p _ _ => p.Incurious where
  done _ _ := trivial
  fail _ _ _ := trivial
  perform _ _ _ := trivial
  action found ps _ := (he _ _ found ps).plan
  bind := .bind
  mono h _ := h

/-! ## Runs that differ in their notes -/

/-- The engine with another number of passes for a line. -/
def Engine.withPasses (e : Engine) (m : Nat) : Engine :=
  { e with limits := { e.limits with maxIterations := m } }

/-- The runs `r` and `r'`, with contexts at the depth `d`, differ in nothing but the count of passes
and the entries for unknown tokens. -/
structure SameButNotes (d : Nat) (r r' : Run) : Prop where
  depth : r.context.depth = d
  same : ∃ passes unknown, r' = r.noting passes unknown

/-- Unless the end `x` has noted a runaway, the end `x'` has the same result in a run that differs in
its notes only. -/
def Refines (d : Nat) {α : Type} (x x' : Except Error α × Run) : Prop :=
  x.2.report.runawayLines = [] → x'.1 = x.1 ∧ SameButNotes d x.2 x'.2

namespace Engine

variable {e : Engine} {m d : Nat} {r r' s : Run} {α β : Type}

/-- A runaway that the first computation has noted is still noted when the second one has ended. -/
theorem refines_bind {x x' : Gen α} {f f' : α → Gen β} (hx : Refines d (x r) (x' r'))
    (hgrow : ∀ v (s : Run), s.report.Extends (f v s).2.report)
    (hf : ∀ v s s', SameButNotes d s s' → Refines d (f v s) (f' v s')) :
    Refines d ((x >>= f) r) ((x' >>= f') r') := by
  rw [Effect.bind_eq, Effect.bind_eq]
  revert hx
  generalize x r = a, x' r' = a'
  intro hx hsettled
  obtain ⟨err | v, s⟩ := a
  · obtain ⟨hresult, hsame⟩ := hx hsettled
    obtain ⟨_, s'⟩ := a'
    cases hresult
    exact ⟨rfl, hsame⟩
  · have hearlier : s.report.runawayLines = [] :=
      List.subset_nil.1 (hsettled ▸ (hgrow v s).runaway)
    obtain ⟨hresult, hsame⟩ := hx hearlier
    obtain ⟨_, s'⟩ := a'
    cases hresult
    exact hf v s s' hsame hsettled

/-- What an instruction does depends on no note, and only notes may differ afterwards. -/
theorem instruction_noting (i : Instruction) (r : Run) (passes : Nat) (unknown : List Unresolved) :
    ∃ passes' unknown', i.follow (r.noting passes unknown) =
      ((i.follow r).1, (i.follow r).2.noting passes' unknown') := by
  cases i with
  | beginLine | noteRunaway | showToken | hideToken | change => exact ⟨passes, unknown, rfl⟩
  | beginPass => exact ⟨passes + 1, unknown, rfl⟩
  | noteUnknown t =>
    let report : Report := { r.report with passes, unknownTriggers := unknown }
    refine ⟨passes, (report.noteUnknown (r.unresolved t.source)).unknownTriggers, ?_⟩
    show (Except.ok (), { r with report := report.noteUnknown (r.unresolved t.source) }) =
      (Except.ok (), (r.mapReport (·.noteUnknown (r.unresolved t.source))).noting passes _)
    rw [Run.mapReport, Report.noteUnknown_eq report, Report.noteUnknown_eq r.report]
    rfl
  | write line =>
    refine ⟨passes, unknown, ?_⟩
    have hsink : (r.noting passes unknown).sink = r.sink := rfl
    simp only [Instruction.follow, Instruction.apply, hsink]
    cases r.sink.write line <;> rfl
  | flush =>
    refine ⟨passes, unknown, ?_⟩
    have hsink : (r.noting passes unknown).sink = r.sink := rfl
    simp only [Instruction.follow, Instruction.apply, hsink]
    cases r.sink.flush <;> rfl

/-- An instruction is followed alike. -/
theorem instruction_refines (h : SameButNotes d r r') (i : Instruction) :
    Refines d (i.follow r) (i.follow r') := by
  obtain ⟨hdepth, passes, unknown, rfl⟩ := h
  obtain ⟨passes', unknown', hsame⟩ := instruction_noting i r passes unknown
  rw [hsame]
  exact fun _ => ⟨rfl, (instruction_frame i r).sameCall.depth.trans hdepth, passes', unknown', rfl⟩

/-- Looking up fields does not ask the report. -/
theorem tableFields_refines (h : SameButNotes d r r') (keysOnly : Bool) :
    Refines d (e.tableFields keysOnly r) ((e.withPasses m).tableFields keysOnly r') := by
  obtain ⟨hdepth, passes, unknown, rfl⟩ := h
  show Refines d (e.tableFields keysOnly r) (e.tableFields keysOnly (r.noting passes unknown))
  rw [tableFields_commutes e keysOnly (·.noting passes unknown) r rfl rfl (fun _ => rfl)
    fun _ => rfl]
  exact fun _ => ⟨rfl, (tableFields_frame e keysOnly r).sameCall.depth.trans hdepth, passes,
    unknown, rfl⟩

/-! ## Plans -/

/-- With `m` passes for a line, the plan `p'` comes to what the plan `p` comes to with those of `e`,
unless that has noted a runaway. -/
def PlanRefines (e : Engine) (m d : Nat) (p p' : Plan α) : Prop :=
  ∀ r r', SameButNotes d r r' → Refines d (p.follow e (callAtDepth e) r)
    (p'.follow (e.withPasses m) (callAtDepth (e.withPasses m)) r')

/-- From contexts at the depth `d`, calls come to the same. -/
def CallsRefine (e : Engine) (m d : Nat) : Prop :=
  ∀ (template : String) (isMain : Bool) (setup : List Change) (r r' : Run),
    SameButNotes d r r' → Refines d (callAtDepth e template isMain setup r)
      (callAtDepth (e.withPasses m) template isMain setup r')

/-- A plan that looks neither at limits nor at the report comes to the same when its calls do. -/
theorem planRefines_incurious (hcalls : CallsRefine e m d) {p : Plan α} (hp : p.Incurious) :
    PlanRefines e m d p p := by
  intro r r' h
  induction p generalizing r r' with
  | done v => exact fun _ => ⟨rfl, h⟩
  | fail err => exact fun _ => ⟨rfl, h⟩
  | look k ih =>
    have hsame : Sight.SameButCounts (e.sight r) ((e.withPasses m).sight r') := by
      obtain ⟨-, passes, unknown, rfl⟩ := h
      exact ⟨rfl, rfl, rfl, rfl⟩
    rw [Plan.follow, Plan.follow, Effect.get_bind, Effect.get_bind, ← hp.1 _ _ hsame]
    exact ih (e.sight r) (hp.2 _) r r' h
  | act i p ih =>
    exact refines_bind (instruction_refines h i) (fun _ s => follow_extends p s)
      fun _ s s' hs => ih hp s s' hs
  | fields b k ih =>
    exact refines_bind (tableFields_refines h b) (fun fs s => follow_extends (k fs) s)
      fun fs s s' hs => ih fs (hp fs) s s' hs
  | call t isMain c p ih =>
    exact refines_bind (hcalls t isMain c r r' h) (fun _ s => follow_extends p s)
      fun _ s s' hs => ih hp s s' hs

theorem planRefines_bind {p p' : Plan α} {f f' : α → Plan β} (hp : PlanRefines e m d p p')
    (hf : ∀ v, PlanRefines e m d (f v) (f' v)) : PlanRefines e m d (p >>= f) (p' >>= f') := by
  intro r r' h
  rw [Plan.follow_bind, Plan.follow_bind]
  exact refines_bind (hp r r' h) (fun v s => follow_extends (f v) s) fun v s s' hs => hf v s s' hs

/-- Whatever is planned instead of noting a runaway. -/
theorem planRefines_runaway (text : List Char) (v : α) (p' : Plan α) :
    PlanRefines e m d (do .perform (.noteRunaway text); pure v) p' := by
  intro r r' _ hsettled
  have hnoted : r.report.runawayLines ++ [r.unresolved text] = [] := hsettled
  simp at hnoted

/-- Further passes over a text without a registered token. -/
theorem planRefines_idle (hkeep : e.limits.unknown = .keep) {text : List Char}
    (hnone : Exhausted e text) (left : Nat) (resolvedAny : Bool) :
    PlanRefines e m d (pure (.text text resolvedAny))
      ((e.withPasses m).rules.settlePlan left text resolvedAny) := by
  rintro r r' ⟨hdepth, passes, unknown, rfl⟩ -
  rw [follow_settlePlan]
  obtain ⟨passes', unknown', hsettle⟩ := settle_exhausted (e := e.withPasses m)
    (callAtDepth (e.withPasses m)) hkeep hnone left resolvedAny (r.noting passes unknown)
  rw [hsettle]
  exact ⟨rfl, hdepth, passes', unknown', rfl⟩

/-- How many passes are allowed does not bear on what one pass does. -/
theorem withPasses_passPlan (text : List Char) :
    (e.withPasses m).rules.passPlan text = e.rules.passPlan text := by
  have hpieces (column : Nat) (ps : List Piece) :
      (e.withPasses m).rules.piecesPlan column ps = e.rules.piecesPlan column ps := by
    induction ps generalizing column with
    | nil => rfl
    | cons p ps ih =>
      cases p with
      | plain c => rw [Rules.piecesPlan, Rules.piecesPlan, ih]
      | token t =>
        rw [Rules.piecesPlan, Rules.piecesPlan, ih]
        rfl
  rw [Rules.passPlan, Rules.passPlan, hpieces]

/-- What is planned for a text after a pass that resolved a token, with `left` further passes. -/
def afterPass (u : Rules) (left : Nat) (text : List Char) : Plan Settled :=
  if left = 0 then
    if u.resolvable text then do
      .perform (.noteRunaway text)
      pure (.text text true)
    else pure (.text text true)
  else u.settlePlan left text true

/-- Further passes are made alike when what comes after the first one is alike. -/
theorem settlePlan_succ_refines (hcurious : e.registry.Incurious) (hcalls : CallsRefine e m d)
    {left left' : Nat} (text : List Char) (resolvedAny : Bool)
    (hafter : ∀ mid, PlanRefines e m d (afterPass e.rules left mid)
      (afterPass (e.withPasses m).rules left' mid)) :
    PlanRefines e m d (e.rules.settlePlan (left + 1) text resolvedAny)
      ((e.withPasses m).rules.settlePlan (left' + 1) text resolvedAny) := by
  have hdone (o : Settled) : PlanRefines e m d (pure o) (pure o) :=
    planRefines_incurious hcalls trivial
  rw [Rules.settlePlan, Rules.settlePlan, withPasses_passPlan]
  refine planRefines_bind (planRefines_incurious hcalls
    ((Rules.incurious_law hcurious).pass text 0)) fun o => ?_
  cases o with
  | replaced value => exact hdone _
  | rewritten mid n =>
    cases n with
    | zero => exact hdone _
    | succ n =>
      show PlanRefines e m d (if !carriesMacros mid then _ else afterPass e.rules left mid)
        (if !carriesMacros mid then _ else afterPass (e.withPasses m).rules left' mid)
      split
      · exact hdone _
      · exact hafter mid

/-- A line that settles in the passes that are allowed settles alike when more are. -/
theorem settlePlan_refines (hcurious : e.registry.Incurious) (hkeep : e.limits.unknown = .keep)
    (hcalls : CallsRefine e m d) {left left' : Nat} (hmore : left ≤ left') (text : List Char)
    (resolvedAny : Bool) : PlanRefines e m d (e.rules.settlePlan (left + 1) text resolvedAny)
      ((e.withPasses m).rules.settlePlan (left' + 1) text resolvedAny) := by
  induction left generalizing left' text resolvedAny with
  | zero =>
    refine settlePlan_succ_refines hcurious hcalls text resolvedAny fun mid => ?_
    rw [afterPass, if_pos rfl]
    split
    · exact planRefines_runaway mid _ _
    · next hres =>
      -- nothing is left to resolve, however many passes are
      have hnone : Exhausted e mid := resolvable_eq_false_iff.1 (Bool.eq_false_iff.2 hres)
      have hres' : ¬ (e.withPasses m).rules.resolvable mid = true := hres
      rw [afterPass, if_neg hres']
      split
      · exact planRefines_incurious hcalls trivial
      · exact planRefines_idle hkeep hnone left' true
  | succ left ih =>
    obtain ⟨left', rfl⟩ : ∃ k, left' = k + 1 := ⟨left' - 1, by omega⟩
    exact settlePlan_succ_refines hcurious hcalls text resolvedAny fun mid =>
      ih (Nat.le_of_succ_le_succ hmore) mid true

/-- A line is processed alike. -/
theorem linePlan_refines (hcurious : e.registry.Incurious) (hkeep : e.limits.unknown = .keep)
    (hmore : e.limits.maxIterations ≤ m) (hcalls : CallsRefine e m d) (line : Line) :
    PlanRefines e m d (e.rules.linePlan line) ((e.withPasses m).rules.linePlan line) := by
  rw [Rules.linePlan, Rules.linePlan]
  split
  · obtain ⟨left, hleft⟩ := passes_eq_succ e.limits
    obtain ⟨left', hleft'⟩ := passes_eq_succ (e.withPasses m).limits
    have hle : e.limits.passes ≤ (e.withPasses m).limits.passes := by
      show max e.limits.maxIterations 1 ≤ max m 1
      omega
    have hsettle : PlanRefines e m d
        (e.rules.settlePlan e.limits.passes line.text.toList false)
        ((e.withPasses m).rules.settlePlan (e.withPasses m).limits.passes line.text.toList
          false) := by
      rw [hleft, hleft']
      exact settlePlan_refines hcurious hkeep hcalls (by omega) _ _
    exact planRefines_bind hsettle fun o =>
      planRefines_incurious hcalls ((Rules.incurious_law hcurious).emit o)
  · exact planRefines_incurious hcalls trivial

/-- So are the lines of a template. -/
theorem sourcePlan_refines (hcurious : e.registry.Incurious) (hkeep : e.limits.unknown = .keep)
    (hmore : e.limits.maxIterations ≤ m) (hcalls : CallsRefine e m d) (source : Source) :
    PlanRefines e m d (e.rules.sourcePlan source) ((e.withPasses m).rules.sourcePlan source) := by
  have hlines (ls : List Line) :
      PlanRefines e m d (e.rules.linesPlan ls) ((e.withPasses m).rules.linesPlan ls) := by
    induction ls with
    | nil => exact planRefines_incurious hcalls trivial
    | cons l ls ih =>
      exact planRefines_bind (planRefines_incurious hcalls trivial) fun _ =>
        planRefines_bind (linePlan_refines hcurious hkeep hmore hcalls l) fun _ => ih
  refine planRefines_bind (hlines source.lines) fun _ => planRefines_incurious hcalls ?_
  cases source.failure <;> trivial

/-- A sub-template is entered alike. -/
theorem enter_noting (template : String) (isMain : Bool) (setup : List Change) (r : Run)
    (passes : Nat) (unknown : List Unresolved) :
    enter template isMain setup (r.noting passes unknown) =
      (enter template isMain setup r).noting passes unknown := by
  have hnoted : (r.noting passes unknown).report.noteTemplate template =
      { r.report.noteTemplate template with passes, unknownTriggers := unknown } := by
    unfold Report.noteTemplate
    show (if template ∈ r.report.subTemplateNames then _ else _) = _
    split <;> rfl
  simp only [enter, hnoted]
  rfl

/-- The templates that are called are processed alike, too. They lie one level deeper, where less
room is left. -/
theorem callsRefine (hcurious : e.registry.Incurious) (hkeep : e.limits.unknown = .keep)
    (hmore : e.limits.maxIterations ≤ m) (d : Nat) : CallsRefine e m d := by
  intro t isMain c r r' h
  have hback := callAtDepth_context e t isMain c r
  obtain ⟨hd, passes, unknown, rfl⟩ := h
  have hd' : (r.noting passes unknown).context.depth = d := hd
  have hlimit : (e.withPasses m).limits.maxDepth = e.limits.maxDepth := rfl
  have htemplates : (e.withPasses m).store = e.store := rfl
  rw [callAtDepth_eq, hd] at hback ⊢
  rw [callAtDepth_eq, hd', hlimit, htemplates]
  by_cases hdeep : e.limits.maxDepth < d + 1
  · rw [if_pos hdeep, if_pos hdeep]
    exact fun _ => ⟨rfl, hd, passes, unknown, rfl⟩
  · rw [if_neg hdeep] at hback ⊢
    rw [if_neg hdeep]
    cases hstore : e.store t with
    | error err => exact fun _ => ⟨rfl, hd, passes, unknown, rfl⟩
    | ok source =>
      rw [hstore] at hback
      have hentered : SameButNotes (d + 1) (enter t isMain c r)
          (enter t isMain c (r.noting passes unknown)) :=
        ⟨by rw [enter_depth, hd], passes, unknown, enter_noting t isMain c r passes unknown⟩
      have hinner := sourcePlan_refines hcurious hkeep hmore
        (callsRefine hcurious hkeep hmore (d + 1)) source _ _ hentered
      rw [follow_sourcePlan, follow_sourcePlan] at hinner
      simp only [framed] at hback ⊢
      intro hsettled
      obtain ⟨hresult, -, passes', unknown', hsame⟩ := hinner hsettled
      refine ⟨hresult, ?_, passes', unknown', ?_⟩
      · exact (congrArg Context.depth hback).trans hd
      · exact congrArg (leave r.current r.arena.size) hsame
termination_by e.limits.maxDepth - d

/-! ## Whole runs -/

/-- The end of a whole run looks at its context only. -/
theorem finishPlan_incurious : Rules.finishPlan.Incurious := by
  refine ⟨fun v v' hsame => ?_, fun v => ?_⟩
  · simp only [hsame.context]
  · show (if v.context.isMain then Plan.perform .flush else pure ()).Incurious
    split <;> trivial

/-- **A run that settles needs no more passes.** Take a registry of either backend, or one whose
triggers read neither the limits nor the report. Under the policy that keeps unknown tokens, a run
that ends well and notes no runaway line ends well with any greater number of passes for a line,
too; it has then written the same, its calls included, and counted and noted the same but for the
passes and the unknown tokens. -/
theorem run_more_passes (e : Engine)
    (hregistry : (∃ b : Backend, e.registry = b.registry) ∨ e.registry.Incurious)
    (hkeep : e.limits.unknown = .keep) (q : Request) (source : Source) (now : Moment) (sink : Sink)
    (report : Report) (after : Sink) (hdone : e.run q source now sink = (.ok report, after))
    (hsettled : report.runawayLines = []) (m : Nat) (hmore : e.limits.maxIterations ≤ m) :
    ∃ passes unknown, (e.withPasses m).run q source now sink =
      (.ok { report with passes, unknownTriggers := unknown }, after) := by
  have hcurious : e.registry.Incurious := by
    rcases hregistry with ⟨b, hb⟩ | h
    · exact hb ▸ b.registry_incurious
    · exact h
  have hcalls : CallsRefine e m 0 := callsRefine hcurious hkeep hmore 0
  have hplan : PlanRefines e m 0 (e.rules.sessionPlan source)
      ((e.withPasses m).rules.sessionPlan source) :=
    planRefines_bind (sourcePlan_refines hcurious hkeep hmore hcalls source) fun _ =>
      planRefines_incurious hcalls finishPlan_incurious
  have hrefines := hplan (e.begin q now sink) (e.begin q now sink)
    ⟨begin_depth e q now sink, _, _, rfl⟩
  have hbegin : (e.withPasses m).begin q now sink = e.begin q now sink := rfl
  rw [run_eq_follow] at hdone
  rw [run_eq_follow, hbegin]
  revert hrefines hdone
  generalize (e.rules.sessionPlan source).follow e (callAtDepth e) (e.begin q now sink) = x,
    ((e.withPasses m).rules.sessionPlan source).follow (e.withPasses m)
      (callAtDepth (e.withPasses m)) (e.begin q now sink) = x'
  intro hdone hrefines
  obtain ⟨err | _, s⟩ := x
  · cases hdone
  · cases hdone
    obtain ⟨hresult, -, passes, unknown, hsame⟩ := hrefines hsettled
    obtain ⟨_, s'⟩ := x'
    cases hresult
    cases hsame
    exact ⟨passes, unknown, rfl⟩

/-- An engine that allows one pass for a line, with a template that leaves a macro. -/
def onePass : Engine where
  registry := Backend.cobol.registry
  schema := .absent
  store t := if t = "part" then .ok ⟨[⟨1, "&UPPER|b|&X|"⟩], none⟩
    else .error (.templateNotFound t .notFound)
  limits := { maxIterations := 1 }

/-- What is noted of a run that calls the template. -/
def onePassReport : Report where
  linesRead := 2
  linesWritten := 1
  passes := 2
  unknownTriggers := [⟨"part", 1, "&X|"⟩]
  subTemplates := 1
  subTemplateNames := ["part"]

/-- The macro that is left has no trigger, and further passes leave it, too. -/
theorem onePass_more :
    let q : Request := { template := "t", output := "o", insuranceLine := "", processType := "" }
    let source : Source := ⟨[⟨1, "&INCLUDE|part|"⟩], none⟩
    let after : Sink := { lines := #["B&X|"], flushes := 1 }
    onePass.run q source ⟨0⟩ {} = (.ok onePassReport, after) ∧
      ∃ passes unknown, (onePass.withPasses 5).run q source ⟨0⟩ {} =
        (.ok { onePassReport with passes, unknownTriggers := unknown }, after) := by
  intro q source after
  have hresult : (onePass.run q source ⟨0⟩ {}).1 = .ok onePassReport :=
    Effect.eq_ok_of_toOption (by decide +kernel)
  have hsink : (onePass.run q source ⟨0⟩ {}).2 = after := by decide +kernel
  have hdone : onePass.run q source ⟨0⟩ {} = (.ok onePassReport, after) := Prod.ext hresult hsink
  exact ⟨hdone, run_more_passes onePass (.inl ⟨.cobol, rfl⟩) rfl q source ⟨0⟩ {} onePassReport
    after hdone rfl 5 (by decide)⟩

end Engine

end Stencil
