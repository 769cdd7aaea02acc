import Stencil.Proofs.Run.Law
import Stencil.Proofs.Run.Stages

/-!
# The bounds of a run

A run ends, and at each of its stages it keeps two bounds. No live context lies deeper than the
limit allows, since a call is refused before its context is made. And the passes are no more than
the lines read allow together: `Spends` says of a plan how many passes it makes on a line, and
at a stage the passes made and those that the current template and its callers may still make on
their lines are covered by the lines read.
-/

namespace Stencil

/-! ## Depth -/

/-- No live context lies deeper than `n`. -/
def Run.DeepestAt (n : Nat) (r : Run) : Prop := ∀ c ∈ r.arena.contexts, c.depth ≤ n

namespace Engine

variable {e : Engine} {r s : Run} {n : Nat}

/-- What keeps to its frame makes no context deeper. -/
theorem Frame.deepestAt {scope : Scope} (h : Frame scope r s) (hr : r.DeepestAt n) :
    s.DeepestAt n := by
  refine h.forall_contexts ?_ hr
  rw [h.sameCall.depth]
  exact hr _ r.context_mem

/-- No move makes a context deeper than the limit. -/
theorem Move.deepestAt (h : Move e r s) (hr : r.DeepestAt e.limits.maxDepth) :
    s.DeepestAt e.limits.maxDepth := by
  cases h with
  | rest => exact hr
  | act i hi => exact (apply_frame hi).deepestAt hr
  | answered | fallback => exact hr
  | enter template isMain setup hroom hfound =>
    intro c hc
    have hc : c ∈ r.arena.contexts ++ [_] := hc
    rcases List.mem_append.1 hc with hc | hc
    · exact hr c hc
    · have hchild : c = (Engine.enter template isMain setup r).context := by
        rw [List.mem_singleton.1 hc]
        exact (Arena.get_push_size _ _).symm
      rw [hchild, enter_depth]
      exact hroom
  | leave caller child => exact fun c hc => hr c (Arena.mem_contexts_of_release hc)

theorem begin_deepestAt (e : Engine) (q : Request) (now : Moment) (sink : Sink) (n : Nat) :
    (e.begin q now sink).DeepestAt n := by
  intro c hc
  have hroot : c = (e.begin q now sink).context := List.mem_singleton.1 hc
  have hdepth : (e.begin q now sink).context.depth = 0 :=
    (Context.SameCall.applyAll _ (e.requestSetup q)).depth
  rw [hroot, hdepth]
  exact Nat.zero_le n

end Engine

/-! ## Passes

A line allows `cap` passes. The passes that it still allows are counted down by the plan that is
followed, and set to `cap` when the next line begins.
-/

namespace Plan

variable {α β : Type} {cap before mid after : Nat}

/-- With `before` passes allowed, the plan may be followed, and comes to its value with `after` at
least. What sub-templates do on their own lines does not count. -/
def Spends (cap : Nat) : Plan α → (before after : Nat) → Prop
  | done _, before, after => after ≤ before
  | fail _, _, _ => True
  | look k, before, after => ∀ v, (k v).Spends cap before after
  | act i p, before, after => ∃ mid, i.Spends cap before mid ∧ p.Spends cap mid after
  | fields _ k, before, after => ∀ fs, (k fs).Spends cap before after
  | call _ _ _ p, before, after => p.Spends cap before after

/-- More passes may be allowed. -/
theorem Spends.mono {p : Plan α} {more : Nat} (h : p.Spends cap before after)
    (hmore : before ≤ more) : p.Spends cap more after := by
  induction p generalizing before more with
  | done v => exact Nat.le_trans h hmore
  | fail err => trivial
  | look k ih => exact fun v => ih v (h v) hmore
  | act i p ih =>
    obtain ⟨mid, hi, hp⟩ := h
    cases i with
    | beginLine => exact ⟨mid, hi, hp⟩
    | beginPass =>
      simp only [Instruction.Spends] at hi
      exact ⟨more - 1, by simp only [Instruction.Spends]; omega, ih hp (by omega)⟩
    | noteUnknown | noteRunaway | showToken | hideToken | change | write | flush =>
      simp only [Instruction.Spends] at hi
      exact ⟨more, rfl, ih hp (by omega)⟩
  | fields b k ih => exact fun fs => ih fs (h fs) hmore
  | call t m c p ih => exact ih h hmore

/-- Plans in a row spend what they spend one after the other. -/
theorem Spends.bind {p : Plan α} {f : α → Plan β} (hp : p.Spends cap before mid)
    (hf : ∀ v, (f v).Spends cap mid after) : (p >>= f).Spends cap before after := by
  show (p.bind f).Spends cap before after
  induction p generalizing before with
  | done v => exact (hf v).mono hp
  | fail err => trivial
  | look k ih => exact fun v => ih v (hp v)
  | act i p ih =>
    obtain ⟨left, hi, hp⟩ := hp
    exact ⟨left, hi, ih hp⟩
  | fields b k ih => exact fun fs => ih fs (hp fs)
  | call t m c p ih => exact ih hp

theorem spends_pure (v : α) (n : Nat) : (pure v : Plan α).Spends cap n n := Nat.le_refl n

theorem spends_perform {i : Instruction} (hi : i.Spends cap before after) :
    (perform i).Spends cap before after := ⟨after, hi, Nat.le_refl after⟩

end Plan

namespace Rules

open Plan Engine

variable {u : Rules} {cap : Nat}

/-- Triggers make no pass. -/
theorem action_spends {α : Type} (a : Action α) (n : Nat) : a.plan.Spends cap n n := by
  induction a with
  | done v => exact Nat.le_refl n
  | fail m => trivial
  | context k ih | ancestry k ih | live k ih | limits k ih | report k ih | tables k ih =>
    exact fun v => ih _
  | fields b k ih => exact fun fs => ih fs
  | change c k ih | write l k ih => exact ⟨n, rfl, ih⟩
  | call t m s k ih => exact ih

/-- Plans spend the passes that a law lets them spend. -/
theorem spends_law (u : Rules) : Law u fun _ p => p.Spends u.passes where
  done := spends_pure
  fail _ _ _ := trivial
  perform _ _ hspends := spends_perform hspends
  action _ _ n := action_spends _ n
  bind := .bind
  mono := .mono

theorem sessionPlan_spends (s : Source) : (u.sessionPlan s).Spends u.passes 0 0 := by
  refine .bind ((spends_law u).source s) fun _ v => ?_
  show Plan.Spends _ (if v.context.isMain then _ else _) 0 0
  split
  · exact spends_perform rfl
  · exact spends_pure () 0

end Rules

namespace Engine

variable {e : Engine} {r s : Run} {g h : Stage}

/-- The passes made and the lines read, before and after an instruction. -/
theorem apply_spends {cap before after : Nat} {i : Instruction} (hi : i.apply r = .ok s)
    (hspends : i.Spends cap before after) :
    s.report.passes + after + r.report.linesRead * cap ≤
      r.report.passes + before + s.report.linesRead * cap := by
  cases i with
  | beginLine number =>
    cases hi
    cases hspends
    show r.report.passes + cap + r.report.linesRead * cap ≤
      r.report.passes + before + (r.report.linesRead + 1) * cap
    rw [Nat.succ_mul]
    omega
  | beginPass =>
    cases hi
    simp only [Instruction.Spends] at hspends
    show r.report.passes + 1 + after + r.report.linesRead * cap ≤
      r.report.passes + before + r.report.linesRead * cap
    omega
  | noteUnknown t =>
    cases hi
    cases hspends
    simp only [Run.mapReport, Report.noteUnknown]
    split <;> exact Nat.le_refl _
  | noteRunaway | showToken | hideToken | change =>
    cases hi
    cases hspends
    exact Nat.le_refl _
  | write =>
    cases hspends
    obtain ⟨sink, -, rfl⟩ := Instruction.apply_write hi
    exact Nat.le_refl _
  | flush =>
    cases hspends
    obtain ⟨sink, -, rfl⟩ := Instruction.apply_flush hi
    exact Nat.le_refl _

/-- Looking up fields counts neither as a pass nor as a line. -/
theorem tableFields_counts (keysOnly : Bool) (r : Run) :
    (e.tableFields keysOnly r).2.report.passes = r.report.passes ∧
      (e.tableFields keysOnly r).2.report.linesRead = r.report.linesRead := by
  obtain h | ⟨_, _, -, h⟩ | ⟨_, _, -, h⟩ := tableFields_cases e keysOnly r <;>
    rw [h] <;> exact ⟨rfl, rfl⟩

/-- The waiting templates may be followed when they are allowed `n` passes together. -/
inductive WaitingSpend (cap : Nat) : List Waiting → (n : Nat) → Prop where
  | nil : WaitingSpend cap [] 0
  | cons {w : Waiting} {ws : List Waiting} {m n : Nat} (first : w.rest.Spends cap m 0)
      (rest : WaitingSpend cap ws n) : WaitingSpend cap (w :: ws) (m + n)

/-- The passes that the current template and its callers may still make on their lines are covered
by the lines read, beside the passes made. -/
def Covered (cap : Nat) (g : Stage) : Prop :=
  ∃ m n, g.plan.Spends cap m 0 ∧ WaitingSpend cap g.waiting n ∧
    g.run.report.passes + m + n ≤ g.run.report.linesRead * cap

/-- One stage covers the next. -/
theorem next_covered (hnext : e.next g = some h) (hg : Covered e.limits.passes g) :
    Covered e.limits.passes h := by
  obtain ⟨m, n, hplan, hwaiting, hcount⟩ := hg
  cases next_eq_some_iff.1 hnext with
  | @returned r =>
    cases hwaiting with
    | @cons _ _ m' n' hfirst hrest =>
      refine ⟨m', n', hfirst, hrest, Nat.le_trans ?_ hcount⟩
      show r.report.passes + m' + n' ≤ r.report.passes + m + (m' + n')
      omega
  | @aborted r =>
    cases hwaiting with
    | @cons _ _ m' n' hfirst hrest =>
      refine ⟨0, n', trivial, hrest, Nat.le_trans ?_ hcount⟩
      show r.report.passes + 0 + n' ≤ r.report.passes + m + (m' + n')
      omega
  | looked => exact ⟨m, n, hplan _, hwaiting, hcount⟩
  | @acted r s _ _ _ hs =>
    obtain ⟨mid, hi, hp⟩ := hplan
    have hspent := apply_spends hs hi
    have hcount : r.report.passes + m + n ≤ r.report.linesRead * e.limits.passes := hcount
    refine ⟨mid, n, hp, hwaiting, ?_⟩
    show s.report.passes + mid + n ≤ s.report.linesRead * e.limits.passes
    omega
  | @answered r b _ _ fs =>
    obtain ⟨hpasses, hlines⟩ := tableFields_counts (e := e) b r
    refine ⟨m, n, hplan fs, hwaiting, ?_⟩
    show (e.tableFields b r).2.report.passes + m + n ≤
      (e.tableFields b r).2.report.linesRead * e.limits.passes
    rwa [hpasses, hlines]
  | @called r t _ _ _ _ source =>
    refine ⟨0, m + n, (Rules.spends_law e.rules).source source, .cons hplan hwaiting, ?_⟩
    have hpasses : (r.report.noteTemplate t).passes = r.report.passes := by
      rw [Report.noteTemplate]
      split <;> rfl
    have hlines : (r.report.noteTemplate t).linesRead = r.report.linesRead := by
      rw [Report.noteTemplate]
      split <;> rfl
    have hcount : r.report.passes + m + n ≤ r.report.linesRead * e.limits.passes := hcount
    show (r.report.noteTemplate t).passes + 0 + (m + n) ≤
      (r.report.noteTemplate t).linesRead * e.limits.passes
    rw [hpasses, hlines]
    omega
  | failed => exact ⟨m, n, trivial, hwaiting, hcount⟩

theorem start_covered (e : Engine) (q : Request) (source : Source) (now : Moment) (sink : Sink) :
    Covered e.limits.passes (e.start q source now sink) :=
  ⟨0, 0, Rules.sessionPlan_spends (u := e.rules) source, .nil, Nat.le_of_eq (Nat.zero_mul _).symm⟩

/-! ## Whole runs -/

/-- **A run ends within its bounds.** It comes to a last stage, to which all its stages lead and at
which it has the result of `run`, a report or an error. At each stage no live context is deeper than
the limit allows, and the passes made are covered by the lines read. -/
theorem run_ends_within_bounds (e : Engine) (q : Request) (source : Source) (now : Moment)
    (sink : Sink) :
    (∃ g, g.outcome = some (e.run q source now sink).1 ∧
      g.run.sink = (e.run q source now sink).2 ∧ Goes e (e.start q source now sink) g ∧
      ∀ h, Goes e (e.start q source now sink) h → Goes e h g) ∧
    ∀ g, Goes e (e.start q source now sink) g →
      (∀ c ∈ g.run.arena.contexts, c.depth ≤ e.limits.maxDepth) ∧
      g.run.report.passes ≤ g.run.report.linesRead * max 1 e.limits.maxIterations := by
  constructor
  · obtain ⟨g, hgoes, houtcome, hsink⟩ := goes_last e q source now sink
    exact ⟨g, houtcome, hsink, hgoes, fun h hh => hh.to_last hgoes (next_eq_none_iff.2 ⟨_, houtcome⟩)⟩
  · intro g hgoes
    refine ⟨hgoes.invariant (fun r s h hr => h.deepestAt hr) (begin_deepestAt e q now sink _), ?_⟩
    have hcovered : Covered e.limits.passes g := by
      induction hgoes with
      | refl => exact start_covered e q source now sink
      | tail _ hnext ih => exact next_covered hnext ih
    obtain ⟨m, n, -, -, hcount⟩ := hcovered
    rw [Limits.passes, Nat.max_comm] at hcount
    omega

end Engine

end Stencil
