import Stencil.Proofs.Context.Arena
import Stencil.Proofs.Run.Steps

/-!
# What a call leaves alone

While a template is processed, only its own context changes, and of that only what triggers may set
and where the processing stands. `Reaches.frame` says so of every run, whatever its triggers do and
wherever it fails; a call, which cuts the arena at its former size, therefore gives its caller the
arena back as it was. Since the context also keeps its depth, the room for further calls is always
what the limit leaves at that depth: `callAtDepth_eq` is the equation of a call that compares its
depth with the limit.
-/

namespace Stencil

/-! ## Contexts of one call -/

/-- The contexts `c` and `c'` belong to one call of a template: they agree in all that is fixed when
the call begins. -/
structure Context.SameCall (c c' : Context) : Prop where
  id : c'.id = c.id
  parent : c'.parent = c.parent
  depth : c'.depth = c.depth
  template : c'.template = c.template
  isMain : c'.isMain = c.isMain
  output : c'.output = c.output
  startedAt : c'.startedAt = c.startedAt

namespace Context.SameCall

variable {c c' c'' : Context}

theorem refl : SameCall c c := ⟨rfl, rfl, rfl, rfl, rfl, rfl, rfl⟩

theorem trans (h : SameCall c c') (h' : SameCall c' c'') : SameCall c c'' :=
  ⟨h'.id.trans h.id, h'.parent.trans h.parent, h'.depth.trans h.depth,
    h'.template.trans h.template, h'.isMain.trans h.isMain, h'.output.trans h.output,
    h'.startedAt.trans h.startedAt⟩

/-- A trigger's change leaves the call, and the line. -/
theorem apply (c : Context) (change : Change) :
    SameCall c (c.apply change) ∧ (c.apply change).line = c.line := by
  cases change <;> exact ⟨⟨rfl, rfl, rfl, rfl, rfl, rfl, rfl⟩, rfl⟩

theorem applyAll (c : Context) (changes : List Change) : SameCall c (c.applyAll changes) := by
  induction changes generalizing c with
  | nil => exact refl
  | cons change changes ih => exact (apply c change).1.trans (ih (c.apply change))

end Context.SameCall

/-- The current context is among the contexts; where no context lives, the root takes its place. -/
theorem Run.context_mem (r : Run) : r.context ∈ r.arena.contexts := by
  rw [context, Arena.get]
  cases hc : r.arena.get? r.current with
  | none => exact List.mem_cons_self
  | some c => exact List.mem_of_getElem? hc

/-! ## Frames -/

/-- What the processing of `scope` keeps of the contexts: which one is current, how many there are,
all but the current one, and of the current one the call and, on one line, the line. -/
structure Engine.Frame (scope : Engine.Scope) (r s : Run) : Prop where
  current : s.current = r.current
  size : s.arena.size = r.arena.size
  others : ∀ i, i ≠ r.current → s.arena.get? i = r.arena.get? i
  sameCall : Context.SameCall r.context s.context
  line : scope = .line → s.context.line = r.context.line

namespace Engine.Frame

open Engine

variable {scope : Scope} {r s t : Run}

/-- Contexts that stay as they are. -/
theorem of_eq (harena : s.arena = r.arena) (hcurrent : s.current = r.current) :
    Frame scope r s := by
  have hcontext : s.context = r.context := by rw [Run.context, harena, hcurrent, Run.context]
  exact ⟨hcurrent, by rw [harena], fun _ _ => by rw [harena], hcontext ▸ .refl,
    fun _ => by rw [hcontext]⟩

theorem refl : Frame scope r r := of_eq rfl rfl

theorem trans (h : Frame scope r s) (h' : Frame scope s t) : Frame scope r t := by
  refine ⟨h'.current.trans h.current, h'.size.trans h.size, fun i hi => ?_,
    h.sameCall.trans h'.sameCall, fun hs => (h'.line hs).trans (h.line hs)⟩
  rw [h'.others i (by rwa [h.current]), h.others i hi]

/-- A change to the current context that leaves its call, and its line. -/
theorem mapContext {f : Context → Context} (hcall : ∀ c, Context.SameCall c (f c))
    (hline : scope = .line → ∀ c, (f c).line = c.line) : Frame scope r (r.mapContext f) := by
  by_cases hlive : r.current < r.arena.size
  · have hcontext : (r.mapContext f).context = f r.context := Arena.get_modify_self hlive
    refine ⟨rfl, Arena.size_modify _ _ _, fun i hi => Arena.get?_modify_of_ne hi, ?_, fun hs => ?_⟩
    · rw [hcontext]
      exact hcall _
    · rw [hcontext]
      exact hline hs _
  · exact of_eq (Arena.modify_of_size_le (by omega)) rfl

end Engine.Frame

namespace Engine

variable {e : Engine} {room : Nat} {scope : Scope} {r s t : Run}

/-- No step of a line touches more than the current context. -/
theorem Step.frame (h : Step e r s) : Frame scope r s := by
  cases h with
  | change c =>
    exact .mapContext (fun d => (Context.SameCall.apply d c).1)
      fun _ d => (Context.SameCall.apply d c).2
  | showToken | hideToken =>
    exact .mapContext (fun _ => ⟨rfl, rfl, rfl, rfl, rfl, rfl, rfl⟩) fun _ _ => rfl
  | answered | fallback | write | pass | unknown | runaway => exact .of_eq rfl rfl

/-- The context of a sub-template is one level below that of its caller. -/
theorem enter_depth (template : String) (isMain : Bool) (setup : List Change) (r : Run) :
    (enter template isMain setup r).context.depth = r.context.depth + 1 := by
  show ((r.arena.push _).get r.arena.size).depth = _
  rw [Arena.get_push_size, (Context.SameCall.applyAll _ setup).depth]
  rfl

/-- Leaving a sub-template restores the arena of its caller, when the sub-template has kept to its
frame. -/
theorem leave_arena {template : String} {isMain : Bool} {setup : List Change}
    (h : Frame .template (enter template isMain setup r) t) :
    (leave r.current r.arena.size t).arena = r.arena := by
  refine Arena.release_eq fun i hi => ?_
  rw [h.others i (Nat.ne_of_lt hi)]
  exact Arena.get?_push_of_lt hi

/-- The beginning of a line shows in the line of the current context. -/
theorem beginLine_frame (number : Nat) (r : Run) : Frame .template r (beginLine number r) := by
  have hcount : Frame .template r (r.mapReport fun p => { p with linesRead := p.linesRead + 1 }) :=
    .of_eq rfl rfl
  refine hcount.trans (.mapContext (fun _ => ?_) fun hline => ?_)
  · exact ⟨rfl, rfl, rfl, rfl, rfl, rfl, rfl⟩
  · cases hline

/-- A run keeps to its frame, whatever its sub-templates do. -/
theorem Reaches.frame (h : Reaches e room scope r s) : Frame scope r s := by
  induction h with
  | refl => exact .refl
  | step _ hstep ih => exact ih.trans hstep.frame
  | line _ number ih => exact ih.trans (beginLine_frame number _)
  | call _ template isMain setup nested ih ihnested =>
    exact ih.trans (.of_eq (leave_arena ihnested) rfl)

/-- The root names the same output throughout. -/
theorem Frame.rootOutput (h : Frame scope r s) : s.arena.root.output = r.arena.root.output := by
  by_cases hroot : r.current = 0
  · have hcontext : r.context = r.arena.root := by rw [Run.context, hroot]; rfl
    have hcontext' : s.context = s.arena.root := by rw [Run.context, h.current, hroot]; rfl
    rw [← hcontext, ← hcontext', h.sameCall.output]
  · have hsame := h.others 0 (Ne.symm hroot)
    exact congrArg Context.output (Option.some.inj hsame)

/-- What is so of all contexts, and of the current one afterwards, is so of all of them
afterwards. -/
theorem Frame.forall_contexts {P : Context → Prop} (h : Frame scope r s) (hcurrent : P s.context)
    (hr : ∀ c ∈ r.arena.contexts, P c) : ∀ c ∈ s.arena.contexts, P c := by
  intro c hc
  obtain ⟨i, hi⟩ := List.mem_iff_getElem?.1 hc
  have hi : s.arena.get? i = some c := hi
  by_cases hplace : i = s.current
  · have hcontext : s.context = c := by
      rw [Run.context, ← hplace, Arena.get, hi, Option.getD_some]
    exact hcontext ▸ hcurrent
  · rw [h.others i (h.current ▸ hplace)] at hi
    exact hr c (List.mem_of_getElem? hi)

/-! ## The line that is shown -/

/-- The current context stays live. -/
theorem Frame.live (h : Frame scope r s) (hlive : r.current < r.arena.size) :
    s.current < s.arena.size := by
  rw [h.current, h.size]
  exact hlive

/-- It is live where a whole run begins, -/
theorem begin_live (e : Engine) (q : Request) (now : Moment) (sink : Sink) :
    (e.begin q now sink).current < (e.begin q now sink).arena.size := Arena.size_pos _

/-- and where a sub-template begins. -/
theorem enter_live (template : String) (isMain : Bool) (setup : List Change) (r : Run) :
    (enter template isMain setup r).current < (enter template isMain setup r).arena.size := by
  show r.arena.size < (r.arena.push _).size
  rw [Arena.size_push]
  exact Nat.lt_succ_self _

/-- So any line of a template is processed in a run that shows it. -/
theorem Reaches.beginLine_line (h : Reaches e room .template r s)
    (hlive : r.current < r.arena.size) (number : Nat) :
    (beginLine number s).context.line = number := by
  show ((s.arena.modify s.current _).get s.current).line = number
  rw [Arena.get_modify_self (h.frame.live hlive)]

/-! ## Calls -/

/-- A call gives its caller the arena back and makes it current again, whatever room there is and
wherever the sub-template fails. -/
theorem call_frame (e : Engine) (room : Nat) (template : String) (isMain : Bool)
    (setup : List Change) (r : Run) :
    (call e room template isMain setup r).2.arena = r.arena ∧
      (call e room template isMain setup r).2.current = r.current := by
  cases room with
  | zero =>
    rw [call_zero]
    exact ⟨rfl, rfl⟩
  | succ room =>
    rw [call_succ]
    cases e.store template with
    | error err => exact ⟨rfl, rfl⟩
    | ok source =>
      have hnested := processSource_does (call_does e room) source (enter template isMain setup r)
      exact ⟨leave_arena hnested.frame, rfl⟩

/-! ## Calls by depth

The room for calls is what the limit leaves at the depth of the current context.
-/

/-- A call of a sub-template from whatever depth the current context has. -/
def callAtDepth (e : Engine) : Sub := fun template isMain setup r =>
  call e (e.limits.maxDepth - r.context.depth) template isMain setup r

/-- The current context keeps its depth. -/
theorem kept_depth (depth : Nat) : Kept e room fun r => r.context.depth = depth :=
  fun _ _ h hr => h.frame.sameCall.depth.trans hr

/-- From contexts at one depth, calls by depth are calls with the room that the limit leaves there. -/
theorem callAtDepth_alike (e : Engine) (depth : Nat) :
    SubAlike e (e.limits.maxDepth - depth) (fun r => r.context.depth = depth)
      (call e (e.limits.maxDepth - depth)) (callAtDepth e) := by
  refine fun template isMain setup => ⟨call_does e _ template isMain setup, fun s hs => ?_⟩
  rw [callAtDepth, hs]

/-- Where room and depth make up the limit, a template is processed with calls by depth. -/
theorem processSource_callAtDepth {depth : Nat} (hroom : depth + room = e.limits.maxDepth)
    (s : Source) (hr : r.context.depth = depth) :
    processSource e (call e room) s r = processSource e (callAtDepth e) s r := by
  obtain rfl : room = e.limits.maxDepth - depth := by omega
  exact (processSource_alike (kept_depth depth) (callAtDepth_alike e depth) s).same r hr

/-- **Calls compare their depth with the limit.** A call fails at once when its template would lie
too deep, and when the store does not have the template; any other processes the template, whose
calls do the same, between entering and leaving. -/
theorem callAtDepth_eq (e : Engine) (template : String) (isMain : Bool) (setup : List Change)
    (r : Run) : callAtDepth e template isMain setup r =
      if e.limits.maxDepth < r.context.depth + 1 then
        (.error (.nestingTooDeep e.limits.maxDepth template), r)
      else
        match e.store template with
        | .error err => (.error err, r)
        | .ok source => framed (enter template isMain setup) (leave r.current r.arena.size)
            (processSource e (callAtDepth e) source) r := by
  split
  · next hdeep =>
    rw [callAtDepth, Nat.sub_eq_zero_of_le (by omega), call_zero]
  · next hdeep =>
    obtain ⟨room, hroom⟩ : ∃ room, e.limits.maxDepth - r.context.depth = room + 1 :=
      ⟨e.limits.maxDepth - r.context.depth - 1, by omega⟩
    rw [callAtDepth, hroom, call_succ]
    cases e.store template with
    | error err => rfl
    | ok source =>
      simp only [framed]
      have hbelow : r.context.depth + 1 + room = e.limits.maxDepth := by omega
      rw [processSource_callAtDepth hbelow source (enter_depth template isMain setup r)]

/-- A whole run begins at the root, -/
theorem begin_depth (e : Engine) (q : Request) (now : Moment) (sink : Sink) :
    (e.begin q now sink).context.depth = 0 :=
  (Context.SameCall.applyAll _ (e.requestSetup q)).depth

/-- so that its calls are calls by depth. -/
theorem begin_callAtDepth (e : Engine) (source : Source) (q : Request) (now : Moment)
    (sink : Sink) : processSource e (call e e.limits.maxDepth) source (e.begin q now sink) =
      processSource e (callAtDepth e) source (e.begin q now sink) :=
  processSource_callAtDepth (Nat.zero_add e.limits.maxDepth) source (begin_depth e q now sink)

theorem session_callAtDepth (e : Engine) (source : Source) (q : Request) (now : Moment)
    (sink : Sink) : session e source (e.begin q now sink) =
      (processSource e (callAtDepth e) source >>= fun _ => finish) (e.begin q now sink) := by
  rw [session, Effect.bind_eq, Effect.bind_eq, begin_callAtDepth]

/-- **Calls are bracketed.** When a call of a sub-template returns, by success or by failure, every
context of its caller's arena is as it was and the same one is current. A call that the limit or the
store refuses changes nothing at all. -/
theorem call_bracketed (e : Engine) (template : String) (isMain : Bool) (setup : List Change)
    (r : Run) :
    (∀ room, (call e room template isMain setup r).2.arena = r.arena ∧
      (call e room template isMain setup r).2.current = r.current) ∧
    (e.limits.maxDepth < r.context.depth + 1 → callAtDepth e template isMain setup r =
      (.error (.nestingTooDeep e.limits.maxDepth template), r)) ∧
    (∀ err, r.context.depth + 1 ≤ e.limits.maxDepth → e.store template = .error err →
      callAtDepth e template isMain setup r = (.error err, r)) := by
  refine ⟨fun room => call_frame e room template isMain setup r, fun hdeep => ?_,
    fun err hroom hstore => ?_⟩
  · rw [callAtDepth_eq, if_pos hdeep]
  · rw [callAtDepth_eq, if_neg (by omega), hstore]

end Engine

end Stencil
