import Stencil.Proofs.Run.Flushed
import Stencil.Proofs.Trigger.Quiet

/-!
# Sinks that refuse

A sink may refuse all lines once it holds some number of them. A run over such a sink goes as it
goes over one that refuses nothing, up to the first line that is refused, wherever that line is
written. It then fails, and so does every template that waits for the one that wrote it: nothing is
written, flushed or tried afterwards. `follow_cut` says so of every plan, and `run_refused` of whole
runs: what is written is the beginning of what would have been written.
-/

namespace Stencil

/-! ## Sinks with a limit -/

/-- The sink, refusing all lines once it holds `n`. -/
def Sink.capped (n : Nat) (cause : IoError) (s : Sink) : Sink := { s with limit := some (n, cause) }

/-- The run, writing to a sink that refuses all lines once it holds `n`. -/
def Run.capped (n : Nat) (cause : IoError) (r : Run) : Run :=
  { r with sink := r.sink.capped n cause }

/-- A run of the output `path`, at the depth `d`, whose sink refuses no line. -/
structure Run.Unlimited (path : Path) (d : Nat) (r : Run) : Prop where
  free : r.sink.limit = none
  output : r.arena.root.output = path
  depth : r.context.depth = d

/-- The end `y` of a computation whose sink refuses all lines once it holds `n`, for the end `x`
that it comes to when no line is refused. -/
inductive CutEnd (n : Nat) (cause : IoError) (path : Path) (d : Nat) {α : Type}
    (x y : Except Error α × Run) : Prop where
  /-- No line was refused. -/
  | whole (unlimited : x.2.Unlimited path d) (same : y = (x.1, x.2.capped n cause))
  /-- A line was refused, and the computation failed. -/
  | cut (failed : y.1 = .error (.outputUnwritable path cause)) (full : n ≤ y.2.sink.lines.size)
      (shorter : y.2.sink.lines.size < x.2.sink.lines.size)
      (written : y.2.sink.lines.toList <+: x.2.sink.lines.toList)

/-- What keeps to its frame, and to its sink's limit. -/
theorem Run.Unlimited.of_frame {d : Nat} {path : Path} {r s : Run} (hr : r.Unlimited path d)
    (hframe : Engine.Frame .template r s) (hlimit : s.sink.limit = r.sink.limit) :
    s.Unlimited path d :=
  ⟨hlimit.trans hr.free, hframe.rootOutput.trans hr.output, hframe.sameCall.depth.trans hr.depth⟩

/-- The sink refuses all lines once it holds `n`, and holds no more. -/
structure Sink.Limited (n : Nat) (cause : IoError) (s : Sink) : Prop where
  limit : s.limit = some (n, cause)
  few : s.lines.size ≤ n

theorem Sink.Limited.write {n : Nat} {cause : IoError} {s t : Sink} {line : String}
    (hs : s.Limited n cause) (h : s.write line = .ok t) : t.Limited n cause := by
  rw [Sink.eq_of_write h]
  refine ⟨hs.limit, ?_⟩
  show (s.lines.push line).size ≤ n
  rw [Array.size_push]
  simp only [Sink.write, hs.limit] at h
  split at h
  · cases h
  · omega

/-- The limit does not bear on flushes. -/
theorem Sink.flush_capped (n : Nat) (cause : IoError) (s : Sink) :
    (s.capped n cause).flush = s.flush.map (·.capped n cause) := by
  obtain ⟨lines, flushes, limit, _ | failure⟩ := s <;> rfl

namespace Engine

variable {e : Engine} {n d : Nat} {cause : IoError} {path : Path} {r s : Run}
  {α β : Type}

/-! ## What is written stays written -/

/-- No move takes lines back. -/
theorem Move.lines (h : Move e r s) : r.sink.lines.toList <+: s.sink.lines.toList := by
  cases h with
  | act i hi =>
    cases i with
    | write line =>
      obtain ⟨sink, hsink, rfl⟩ := Instruction.apply_write hi
      rw [Sink.eq_of_write hsink, Array.toList_push]
      exact List.prefix_append _ _
    | flush =>
      obtain ⟨sink, hsink, rfl⟩ := Instruction.apply_flush hi
      have hlines : sink.lines = r.sink.lines := by rw [Sink.eq_of_flush hsink]
      exact hlines ▸ List.prefix_rfl
    | beginLine | beginPass | noteUnknown | noteRunaway | showToken | hideToken | change =>
      cases hi
      exact List.prefix_rfl
  | rest | answered | fallback | enter | leave => exact List.prefix_rfl

/-- Following a plan only adds lines. -/
theorem follow_lines (p : Plan α) (r : Run) :
    r.sink.lines.toList <+: (p.follow e (callAtDepth e) r).2.sink.lines.toList :=
  follow_invariant (P := fun s => r.sink.lines.toList <+: s.sink.lines.toList)
    (fun _ _ hmove hr => hr.trans hmove.lines) p List.prefix_rfl

/-- No move writes more lines than the sink takes. -/
theorem Move.limited (h : Move e r s) (hr : r.sink.Limited n cause) : s.sink.Limited n cause := by
  cases h with
  | act i hi =>
    cases i with
    | write line =>
      obtain ⟨sink, hsink, rfl⟩ := Instruction.apply_write hi
      exact hr.write hsink
    | flush =>
      obtain ⟨sink, hsink, rfl⟩ := Instruction.apply_flush hi
      rw [Sink.eq_of_flush hsink]
      exact ⟨hr.limit, hr.few⟩
    | beginLine | beginPass | noteUnknown | noteRunaway | showToken | hideToken | change =>
      cases hi
      exact hr
  | rest | answered | fallback | enter | leave => exact hr

/-! ## Computations that are cut -/

/-- Where the first of two computations is cut, the second one is not begun. -/
theorem cutEnd_bind {x y : Gen α} {f f' : α → Gen β} {r' : Run}
    (hxy : CutEnd n cause path d (x r) (y r'))
    (hlines : ∀ v s, s.sink.lines.toList <+: (f v s).2.sink.lines.toList)
    (hf : ∀ v s, s.Unlimited path d → CutEnd n cause path d (f v s) (f' v (s.capped n cause))) :
    CutEnd n cause path d ((x >>= f) r) ((y >>= f') r') := by
  rw [Effect.bind_eq, Effect.bind_eq]
  revert hxy
  generalize x r = a, y r' = b
  rintro (⟨hunlimited, rfl⟩ | ⟨hfailed, hfull, hshorter, hwritten⟩)
  · obtain ⟨err | v, s⟩ := a
    · exact .whole hunlimited rfl
    · exact hf v s hunlimited
  · obtain ⟨err' | v', s'⟩ := b
    · cases hfailed
      obtain ⟨err | v, s⟩ := a
      · exact .cut rfl hfull hshorter hwritten
      · have hgrown := hlines v s
        exact .cut rfl hfull (Nat.lt_of_lt_of_le hshorter hgrown.length_le) (hwritten.trans hgrown)
    · cases hfailed

/-- An instruction that succeeds in both runs is not cut. -/
theorem instruction_whole {i : Instruction} (hr : r.Unlimited path d) (hi : i.apply r = .ok s)
    (hi' : i.apply (r.capped n cause) = .ok (s.capped n cause))
    (hlimit : s.sink.limit = r.sink.limit) :
    CutEnd n cause path d (i.follow r) (i.follow (r.capped n cause)) := by
  simp only [Instruction.follow, hi, hi']
  exact .whole (hr.of_frame (apply_frame hi) hlimit) rfl

/-- An instruction is cut where it writes a line that is refused. -/
theorem instruction_cut (hr : r.Unlimited path d) (i : Instruction) :
    CutEnd n cause path d (i.follow r) (i.follow (r.capped n cause)) := by
  cases i with
  | write line =>
    have hfree : r.sink.write line = .ok { r.sink with lines := r.sink.lines.push line } := by
      simp only [Sink.write, hr.free]
    by_cases hfull : n ≤ r.sink.lines.size
    · have hrefused : (r.sink.capped n cause).write line = .error cause := if_pos hfull
      simp only [Instruction.follow, Instruction.apply, Run.capped, hfree, hrefused]
      refine .cut ?_ hfull ?_ ?_
      · show Except.error (Error.outputUnwritable r.arena.root.output cause) = _
        rw [hr.output]
      · show r.sink.lines.size < (r.sink.lines.push line).size
        rw [Array.size_push]
        exact Nat.lt_succ_self _
      · show r.sink.lines.toList <+: (r.sink.lines.push line).toList
        rw [Array.toList_push]
        exact List.prefix_append _ _
    · have hroom : (r.sink.capped n cause).write line =
          .ok ({ r.sink with lines := r.sink.lines.push line }.capped n cause) := if_neg hfull
      have happly : (Instruction.write line).apply r = .ok { r with
          sink := { r.sink with lines := r.sink.lines.push line }
          report := { r.report with linesWritten := r.report.linesWritten + 1 } } := by
        simp only [Instruction.apply, hfree]
      refine instruction_whole hr happly ?_ rfl
      simp only [Instruction.apply, Run.capped, hroom]
  | flush =>
    cases hflush : r.sink.flush with
    | error refused =>
      simp only [Instruction.follow, Instruction.apply, Run.capped, Sink.flush_capped, hflush,
        Except.map]
      exact .whole hr rfl
    | ok sink =>
      refine instruction_whole hr (by rw [Instruction.apply, hflush]) ?_ ?_
      · simp only [Instruction.apply, Run.capped, Sink.flush_capped, hflush, Except.map]
      · rw [Sink.eq_of_flush hflush]
  | beginLine | beginPass | noteUnknown | noteRunaway | showToken | hideToken | change =>
    exact instruction_whole hr rfl rfl rfl

/-- Looking up fields does not ask the sink. -/
theorem tableFields_cut (hr : r.Unlimited path d) (keysOnly : Bool) :
    CutEnd n cause path d (e.tableFields keysOnly r)
      (e.tableFields keysOnly (r.capped n cause)) :=
  .whole (hr.of_frame (tableFields_frame e keysOnly r) (by rw [tableFields_sink]))
    (tableFields_commutes e keysOnly (·.capped n cause) r rfl rfl (fun _ => rfl) fun _ => rfl)

/-- From contexts at the depth `d`, calls are cut. -/
def CallsCut (e : Engine) (n : Nat) (cause : IoError) (path : Path) (d : Nat) : Prop :=
  ∀ (template : String) (isMain : Bool) (setup : List Change) (r : Run), r.Unlimited path d →
    CutEnd n cause path d (callAtDepth e template isMain setup r)
      (callAtDepth e template isMain setup (r.capped n cause))

/-- A plan is cut when its calls are. -/
theorem follow_cut_of_callsCut (hcalls : CallsCut e n cause path d) (p : Plan α)
    (hr : r.Unlimited path d) :
    CutEnd n cause path d (p.follow e (callAtDepth e) r)
      (p.follow e (callAtDepth e) (r.capped n cause)) := by
  induction p generalizing r with
  | done v => exact .whole hr rfl
  | fail err => exact .whole hr rfl
  | look k ih =>
    rw [Plan.follow, Effect.get_bind, Effect.get_bind]
    exact ih (e.sight r) hr
  | act i p ih =>
    exact cutEnd_bind (instruction_cut hr i) (fun _ s => follow_lines p s) fun _ s hs => ih hs
  | fields b k ih =>
    exact cutEnd_bind (tableFields_cut hr b) (fun fs s => follow_lines (k fs) s) fun fs s hs => ih fs hs
  | call t m c p ih =>
    exact cutEnd_bind (hcalls t m c r hr) (fun _ s => follow_lines p s) fun _ s hs => ih hs

/-- Calls are cut: a template that is called lies one level deeper, and a call that is cut has
written what its template has. -/
theorem callsCut (e : Engine) (n : Nat) (cause : IoError) (path : Path) (d : Nat) :
    CallsCut e n cause path d := by
  intro t m c r hr
  have hd : r.context.depth = d := hr.depth
  have hd' : (r.capped n cause).context.depth = d := hr.depth
  have hback := callAtDepth_frame e t m c r
  rw [callAtDepth_eq, hd] at hback ⊢
  rw [callAtDepth_eq, hd']
  by_cases hdeep : e.limits.maxDepth < d + 1
  · rw [if_pos hdeep, if_pos hdeep]
    exact .whole hr rfl
  · rw [if_neg hdeep] at hback ⊢
    rw [if_neg hdeep]
    cases hstore : e.store t with
    | error err => exact .whole hr rfl
    | ok source =>
      rw [hstore] at hback
      have hentered : (enter t m c r).Unlimited path (d + 1) :=
        ⟨hr.free, hr.output, by rw [enter_depth, hd]⟩
      have hcut := follow_cut_of_callsCut (callsCut e n cause path (d + 1))
        (e.rules.sourcePlan source) hentered
      rw [follow_sourcePlan] at hcut
      simp only [framed] at hback ⊢
      cases hcut with
      | whole hunlimited hsame =>
        refine .whole (hr.of_frame (.of_eq hback.1 hback.2) ?_) ?_
        · exact hunlimited.free.trans hr.free.symm
        · exact congrArg (fun y => (y.1, leave r.current r.arena.size y.2)) hsame
      | cut hfailed hfull hshorter hwritten => exact .cut hfailed hfull hshorter hwritten
termination_by e.limits.maxDepth - d

/-- A plan is cut at the first line that is refused. -/
theorem follow_cut (p : Plan α) (hr : r.Unlimited path d) :
    CutEnd n cause path d (p.follow e (callAtDepth e) r)
      (p.follow e (callAtDepth e) (r.capped n cause)) :=
  follow_cut_of_callsCut (callsCut e n cause path d) p hr

/-! ## Whole runs -/

/-- Whether a flush is tried depends on the result only, -/
theorem closed_capped (q : Request) (x : Except Error Unit × Run) :
    closed q (x.1, x.2.capped n cause) = ((closed q x).1, (closed q x).2.capped n cause) := by
  obtain ⟨err | _, s⟩ := x
  · rfl
  · simp only [closed, Run.capped, Sink.flush_capped]
    cases q.isMain with
    | false => rfl
    | true => cases s.sink.flush <;> rfl

/-- and it does not bear on the lines. -/
theorem closed_lines (q : Request) (x : Except Error Unit × Run) :
    (closed q x).2.lines = x.2.sink.lines := by
  obtain ⟨err | _, s⟩ := x
  · rfl
  · simp only [closed]
    cases q.isMain with
    | false => rfl
    | true =>
      cases hflush : s.sink.flush with
      | error refused => rfl
      | ok sink =>
        show sink.lines = s.sink.lines
        rw [Sink.eq_of_flush hflush]

/-- **A sink that refuses cuts the output.** Where a sink takes `n` lines only, the lines of a run
are the first `n` of those that it writes to a sink which refuses none. When these are all of them,
the result is the same; otherwise the run fails for the request's output, wherever the line that is
refused is written, and the sink is not flushed. -/
theorem run_refused (e : Engine) (q : Request) (source : Source) (now : Moment)
    (failure : Option IoError) (n : Nat) (cause : IoError) :
    let whole := e.run q source now { flushFailure := failure }
    let refused := e.run q source now { limit := some (n, cause), flushFailure := failure }
    refused.2.lines.toList = whole.2.lines.toList.take n ∧
      (whole.2.lines.size ≤ n → refused.1 = whole.1) ∧
      (n < whole.2.lines.size →
        refused.1 = .error (.outputUnwritable q.output cause) ∧ refused.2.flushes = 0) := by
  intro whole refused
  let start := e.begin q now { flushFailure := failure }
  have hwhole : whole = closed q (processSource e (callAtDepth e) source start) :=
    run_closed e q source now _
  have hrefused : refused =
      closed q (processSource e (callAtDepth e) source (start.capped n cause)) :=
    run_closed e q source now _
  have hflushes : (processSource e (callAtDepth e) source (start.capped n cause)).2.sink.flushes =
      0 := processSource_flushes e q source now _
  have hstart : start.Unlimited q.output 0 := ⟨rfl, (begin_frame .refl).2, begin_depth e q now _⟩
  have hcut : CutEnd n cause q.output 0 (processSource e (callAtDepth e) source start)
      (processSource e (callAtDepth e) source (start.capped n cause)) := by
    rw [← follow_sourcePlan]
    exact follow_cut _ hstart
  have hlimited : (processSource e (callAtDepth e) source (start.capped n cause)).2.sink.Limited n
      cause := by
    rw [← follow_sourcePlan]
    exact follow_invariant (fun _ _ hmove hr => hmove.limited hr) _ ⟨rfl, Nat.zero_le n⟩
  rw [hwhole, hrefused, closed_lines, closed_lines]
  revert hcut hflushes hlimited
  generalize processSource e (callAtDepth e) source start = x,
    processSource e (callAtDepth e) source (start.capped n cause) = y
  rintro hflushes (⟨hunlimited, rfl⟩ | ⟨hfailed, hfull, hshorter, hwritten⟩) hlimited
  · have hfew : x.2.sink.lines.size ≤ n := hlimited.few
    refine ⟨(List.take_of_length_le hfew).symm, fun _ => by rw [closed_capped], fun hmore => ?_⟩
    exact absurd hfew (Nat.not_le_of_lt hmore)
  · have hsize : y.2.sink.lines.size = n := Nat.le_antisymm hlimited.few hfull
    refine ⟨?_, fun hfew => ?_, fun _ => ?_⟩
    · rw [← hsize]
      exact List.prefix_iff_eq_take.1 hwritten
    · omega
    · obtain ⟨err | _, s⟩ := y
      · cases hfailed
        exact ⟨rfl, hflushes⟩
      · cases hfailed

end Engine

end Stencil
