import Stencil.Proofs.Effect
import Stencil.Run.Engine

/-!
# The steps of a run

Whatever a template is made of and whatever its triggers do, a run changes by few kinds of steps.
`Step` lists those that are made in one go, and `Reaches` puts them together with the beginnings of
lines and the calls of sub-templates. `processSource_does` and its likes say that no computation
of the engine does anything else, in success and in failure. What all steps respect is thus
respected by every run, by one induction on `Reaches`.
-/

namespace Stencil

/-! ## Sinks -/

/-- A line that is taken is added, and nothing else changes. -/
theorem Sink.eq_of_write {s t : Sink} {line : String} (h : s.write line = .ok t) :
    t = { s with lines := s.lines.push line } := by
  unfold write at h
  split at h
  · split at h <;> cases h
    rfl
  · cases h
    rfl

/-- A flush that succeeds is counted, and nothing else changes. -/
theorem Sink.eq_of_flush {s t : Sink} (h : s.flush = .ok t) :
    t = { s with flushes := s.flushes + 1 } := by
  unfold flush at h
  split at h <;> cases h
  rfl

/-! ## Steps -/

namespace Engine

/-- What a run does in one go while a line is processed. -/
inductive Step (e : Engine) (r : Run) : Run → Prop where
  /-- A trigger changes the current context. -/
  | change (c : Change) : Step e r (r.mapContext (·.apply c))
  /-- The context shows the token to be resolved and its column. -/
  | showToken (text : String) (column : Nat) :
      Step e r (r.mapContext fun c => { c with token := some text, column })
  /-- The token has been resolved. -/
  | hideToken : Step e r (r.mapContext fun c => { c with token := none })
  /-- The fields of the bound table are looked up and found. -/
  | answered (table : String) (keysOnly : Bool) {fs : List Field}
      (found : (r.memo.lookup e.schema table keysOnly).1 = .ok fs) :
      Step e r { r with memo := (r.memo.lookup e.schema table keysOnly).2 }
  /-- The fields of the bound table are looked up and not found. -/
  | fallback (table : String) (keysOnly : Bool) {err : SchemaError}
      (failed : (r.memo.lookup e.schema table keysOnly).1 = .error err) :
      Step e r { r with
        memo := (r.memo.lookup e.schema table keysOnly).2
        report := { r.report with schemaFallbacks := r.report.schemaFallbacks + 1 } }
  /-- A line is written. -/
  | write (line : String) {sink : Sink} (accepted : r.sink.write line = .ok sink) :
      Step e r { r with
        sink
        report := { r.report with linesWritten := r.report.linesWritten + 1 } }
  /-- A pass begins. -/
  | pass : Step e r (r.mapReport fun p => { p with passes := p.passes + 1 })
  /-- A token is found to have no trigger. -/
  | unknown (t : Token) (unregistered : e.registry.find? t.name = none) :
      Step e r (r.mapReport (·.noteUnknown (r.unresolved t.source)))
  /-- A line is found not to settle. -/
  | runaway (text : List Char) (unsettled : e.resolvable text = true) :
      Step e r (r.mapReport (·.noteRunaway (r.unresolved text)))

/-- The run in which a line of a template is begun: it is counted, and the context shows it. -/
def beginLine (number : Nat) (r : Run) : Run :=
  (r.mapReport fun p => { p with linesRead := p.linesRead + 1 }).mapContext
    fun c => { c with line := number }

/-- What is being processed: one line, or a template line after line. -/
inductive Scope where
  | line
  | template
deriving DecidableEq, Repr

/-- The states that a run comes to from `r` at one level, while what `scope` says is processed
there. Sub-templates may nest `room` levels deep. -/
inductive Reaches (e : Engine) : (room : Nat) → (scope : Scope) → (r : Run) → Run → Prop where
  | refl {room : Nat} {scope : Scope} {r : Run} : Reaches e room scope r r
  | step {room : Nat} {scope : Scope} {r s t : Run} (before : Reaches e room scope r s)
      (step : Step e s t) : Reaches e room scope r t
  /-- The next line of the template begins. -/
  | line {room : Nat} {r s : Run} (before : Reaches e room .template r s) (number : Nat) :
      Reaches e room .template r (beginLine number s)
  /-- A sub-template is called, and comes to its end or fails. -/
  | call {room : Nat} {scope : Scope} {r s t : Run} (before : Reaches e (room + 1) scope r s)
      (template : String) (isMain : Bool) (setup : List Change)
      (nested : Reaches e room .template (enter template isMain setup s) t) :
      Reaches e (room + 1) scope r (leave s.current s.arena.size t)

namespace Reaches

variable {e : Engine} {room : Nat} {scope : Scope} {r s t : Run}

theorem ofStep (h : Step e r s) : Reaches e room scope r s := .step .refl h

theorem trans (h : Reaches e room scope r s) (h' : Reaches e room scope s t) :
    Reaches e room scope r t := by
  induction h' with
  | refl => exact h
  | step _ hstep ih => exact .step (ih h) hstep
  | line _ number ih => exact .line (ih h) number
  | call _ template isMain setup nested ih => exact .call (ih h) template isMain setup nested

/-- What is done for a line is done for a template. -/
theorem toTemplate (h : Reaches e room scope r s) : Reaches e room .template r s := by
  induction h with
  | refl => exact .refl
  | step _ hstep ih => exact .step ih hstep
  | line _ number ih => exact .line ih number
  | call _ template isMain setup nested ih => exact .call ih template isMain setup nested

end Reaches

/-! ## Computations make steps

A computation `Does` what `room` and `scope` allow when it comes to states so reachable only,
whether it succeeds or fails.
-/

/-- The computation `x` leaves a run in a state that it can reach. -/
def Does (e : Engine) (room : Nat) (scope : Scope) {α : Type} (x : Gen α) : Prop :=
  ∀ r, Reaches e room scope r (x r).2

/-- Every call of a sub-template leaves a run in a state that it can reach while a line is
processed. -/
def SubDoes (e : Engine) (room : Nat) (sub : Sub) : Prop :=
  ∀ template isMain setup, Does e room .line (sub template isMain setup)

section

variable {e : Engine} {room : Nat} {scope : Scope} {α β : Type}

theorem does_pure (a : α) : Does e room scope (pure a : Gen α) := fun _ => .refl

theorem does_throw (err : Error) : Does e room scope (throw err : Gen α) := fun _ => .refl

theorem does_get : Does e room scope (get : Gen Run) := fun _ => .refl

theorem does_modify {f : Run → Run} (h : ∀ r, Step e r (f r)) :
    Does e room scope (modify f : Gen Unit) := fun r => .ofStep (h r)

theorem does_bind {x : Gen α} {f : α → Gen β} (hx : Does e room scope x)
    (hf : ∀ a, Does e room scope (f a)) : Does e room scope (x >>= f) := by
  intro r
  have hr := hx r
  rw [Effect.bind_eq]
  rcases hxr : x r with ⟨_ | a, s⟩
  · rw [hxr] at hr
    exact hr
  · rw [hxr] at hr
    exact hr.trans (hf a s)

theorem Does.toTemplate {x : Gen α} (hx : Does e room scope x) : Does e room .template x :=
  fun r => (hx r).toTemplate

/-- Writing a line is a step, or fails and changes nothing. -/
theorem writeLine_does (line : String) : Does e room scope (writeLine line) := by
  intro r
  rw [writeLine, Effect.get_bind]
  cases hw : r.sink.write line with
  | error cause => exact .refl
  | ok sink => exact .ofStep (.write line hw)

theorem writeLines_does (lines : List String) : Does e room scope (writeLines lines) := by
  induction lines with
  | nil => exact does_pure ()
  | cons l ls ih => exact does_bind (writeLine_does l) fun _ => ih

theorem emit_does (text : List Char) : Does e room scope (emit text) := writeLines_does _

/-- What a look-up of fields gives: the caller's fields, or what the memo answers. -/
theorem tableFields_result (e : Engine) (keysOnly : Bool) (r : Run) :
    (e.tableFields keysOnly r).1 = .ok (r.context.table.bind fun b =>
      match b.fields with
      | some fs => some (if keysOnly then fs.filter (·.isKey) else fs)
      | none => (r.memo.lookup e.schema b.table keysOnly).1.toOption) := by
  rw [tableFields, Effect.get_bind]
  cases r.context.table with
  | none => rfl
  | some b =>
    obtain ⟨table, index, fields⟩ := b
    cases fields with
    | some fs => rfl
    | none =>
      simp only [Option.bind_some]
      cases hl : (r.memo.lookup e.schema table keysOnly).1 <;> rfl

/-- Looking up fields leaves the run, or fills the memo, and counts a look-up that fails. -/
theorem tableFields_cases (e : Engine) (keysOnly : Bool) (r : Run) :
    (e.tableFields keysOnly r).2 = r ∨
    (∃ table fs, (r.memo.lookup e.schema table keysOnly).1 = .ok fs ∧
      (e.tableFields keysOnly r).2 =
        { r with memo := (r.memo.lookup e.schema table keysOnly).2 }) ∨
    ∃ table err, (r.memo.lookup e.schema table keysOnly).1 = .error err ∧
      (e.tableFields keysOnly r).2 = { r with
        memo := (r.memo.lookup e.schema table keysOnly).2
        report := { r.report with schemaFallbacks := r.report.schemaFallbacks + 1 } } := by
  rw [tableFields, Effect.get_bind]
  cases r.context.table with
  | none => exact .inl rfl
  | some b =>
    obtain ⟨table, index, fields⟩ := b
    cases fields with
    | some fs => exact .inl rfl
    | none =>
      cases hl : (r.memo.lookup e.schema table keysOnly).1 with
      | ok fs =>
        simp only [hl]
        exact .inr (.inl ⟨table, fs, hl, rfl⟩)
      | error err =>
        simp only [hl]
        exact .inr (.inr ⟨table, err, hl, rfl⟩)

/-- It looks at the current context and the memo only. A change that leaves these to it, and is left
what it changes, may as well be made afterwards. -/
theorem tableFields_commutes (e : Engine) (keysOnly : Bool) (f : Run → Run) (r : Run)
    (hcontext : (f r).context = r.context) (hmemo : (f r).memo = r.memo)
    (hanswered : ∀ memo, f { r with memo } = { f r with memo })
    (hfallback : ∀ memo,
      f { r with memo, report := { r.report with
        schemaFallbacks := r.report.schemaFallbacks + 1 } } =
      { f r with memo, report := { (f r).report with
        schemaFallbacks := (f r).report.schemaFallbacks + 1 } }) :
    e.tableFields keysOnly (f r) =
      ((e.tableFields keysOnly r).1, f (e.tableFields keysOnly r).2) := by
  simp only [tableFields, Effect.get_bind, hcontext, hmemo]
  cases r.context.table with
  | none => rfl
  | some b =>
    obtain ⟨table, index, fields⟩ := b
    cases fields with
    | some fs => rfl
    | none =>
      dsimp only
      cases (r.memo.lookup e.schema table keysOnly).1 with
      | ok fs => exact congrArg (Prod.mk _) (hanswered _).symm
      | error err => exact congrArg (Prod.mk _) (hfallback _).symm

theorem tableFields_does (keysOnly : Bool) : Does e room scope (tableFields e keysOnly) := by
  intro r
  obtain h | ⟨table, fs, hfound, h⟩ | ⟨table, err, hfailed, h⟩ := tableFields_cases e keysOnly r
  · rw [h]
    exact .refl
  · rw [h]
    exact .ofStep (.answered table keysOnly hfound)
  · rw [h]
    exact .ofStep (.fallback table keysOnly hfailed)

theorem emitSettled_does (o : Settled) : Does e room scope (emitSettled o) := by
  unfold emitSettled
  split
  · exact does_pure ()
  · split
    · exact does_pure ()
    · exact emit_does _
  · split
    · exact does_pure ()
    · exact emit_does _

end

/-! ## Computations with calls

What a computation that calls sub-templates does depends on the calls alone. With calls that make
steps it makes steps, and with calls that do the same in all runs of some kind it does the same in
them, when runs stay of that kind. Both are said at once, so that each computation is walked through
only here.
-/

/-- A run with the property `P` has it as long as its template is processed. -/
def Kept (e : Engine) (room : Nat) (P : Run → Prop) : Prop :=
  ∀ r s, Reaches e room .template r s → P r → P s

/-- The computation `x` does what `room` and `scope` allow, and in a run with the property `P` it
does what `y` does. -/
structure Alike (e : Engine) (room : Nat) (scope : Scope) (P : Run → Prop) {α : Type}
    (x y : Gen α) : Prop where
  does : Does e room scope x
  same : ∀ r, P r → x r = y r

/-- Calls of sub-templates that are alike. -/
def SubAlike (e : Engine) (room : Nat) (P : Run → Prop) (sub sub' : Sub) : Prop :=
  ∀ template isMain setup,
    Alike e room .line P (sub template isMain setup) (sub' template isMain setup)

section

variable {e : Engine} {room : Nat} {scope : Scope} {P : Run → Prop} {α β : Type} {sub sub' : Sub}

theorem Alike.refl {x : Gen α} (hx : Does e room scope x) : Alike e room scope P x x :=
  ⟨hx, fun _ _ => rfl⟩

theorem Alike.toTemplate {x y : Gen α} (h : Alike e room scope P x y) :
    Alike e room .template P x y := ⟨h.does.toTemplate, h.same⟩

/-- The first of two computations leaves a run with the property `P`, in which the second ones are
compared. -/
theorem Alike.bind (hP : Kept e room P) {x y : Gen α} {f g : α → Gen β}
    (hxy : Alike e room scope P x y) (hfg : ∀ a, Alike e room scope P (f a) (g a)) :
    Alike e room scope P (x >>= f) (y >>= g) := by
  refine ⟨does_bind hxy.does fun a => (hfg a).does, fun r hr => ?_⟩
  have hs := hP r _ (hxy.does r).toTemplate hr
  rw [Effect.bind_eq, Effect.bind_eq, ← hxy.same r hr]
  rcases hx : x r with ⟨_ | a, s⟩
  · rfl
  · rw [hx] at hs
    exact (hfg a).same s hs

/-- An action does what its requests do, whatever it is. -/
theorem perform_alike (hP : Kept e room P) (hsub : SubAlike e room P sub sub') (a : Action α) :
    Alike e room .line P (perform e sub a) (perform e sub' a) := by
  induction a with
  | done v => exact .refl (does_pure v)
  | fail m => exact .refl (does_throw (.other m))
  | context k ih => exact .bind hP (.refl does_get) fun r => ih r.context
  | ancestry k ih => exact .bind hP (.refl does_get) fun r => ih _
  | live k ih => exact .bind hP (.refl does_get) fun r => ih r.arena.size
  | limits k ih => exact ih e.limits
  | report k ih => exact .bind hP (.refl does_get) fun r => ih r.report
  | tables k ih => exact ih e.schema.listing
  | fields b k ih => exact .bind hP (.refl (tableFields_does b)) fun fs => ih fs
  | change c k ih => exact .bind hP (.refl (does_modify fun _ => .change c)) fun _ => ih
  | write l k ih => exact .bind hP (.refl (writeLine_does l)) fun _ => ih
  | call t m s k ih => exact .bind hP (hsub t m s) fun _ => ih

theorem resolveToken_alike (hP : Kept e room P) (hsub : SubAlike e room P sub sub')
    (column : Nat) (t : Token) (trigger : Trigger) : Alike e room .line P
      (resolveToken e sub column t trigger) (resolveToken e sub' column t trigger) :=
  .bind hP (.refl (does_modify fun _ => .showToken _ column)) fun _ =>
    .bind hP (perform_alike hP hsub _) fun value =>
      .bind hP (.refl (does_modify fun _ => .hideToken)) fun _ => .refl (does_pure value)

theorem resolvePieces_alike (hP : Kept e room P) (hsub : SubAlike e room P sub sub')
    (column : Nat) (ps : List Piece) : Alike e room .line P
      (resolvePieces e sub column ps) (resolvePieces e sub' column ps) := by
  induction ps generalizing column with
  | nil => exact .refl (does_pure _)
  | cons p ps ih =>
    cases p with
    | plain c => exact .bind hP (ih _) fun o => .refl (does_pure _)
    | token t =>
      unfold resolvePieces
      split
      · next hnone =>
        exact .bind hP (.refl (does_modify fun _ => .unknown t hnone)) fun _ =>
          .bind hP (ih _) fun o => .refl (does_pure _)
      · next trigger _ =>
        refine .bind hP (resolveToken_alike hP hsub column t trigger) fun value => ?_
        split
        · exact .refl (does_pure _)
        · exact .bind hP (ih _) fun o => .refl (does_pure _)

theorem pass_alike (hP : Kept e room P) (hsub : SubAlike e room P sub sub') (text : List Char) :
    Alike e room .line P (pass e sub text) (pass e sub' text) :=
  .bind hP (.refl (does_modify fun _ => .pass)) fun _ => resolvePieces_alike hP hsub 0 _

theorem settle_alike (hP : Kept e room P) (hsub : SubAlike e room P sub sub') (left : Nat)
    (text : List Char) (resolvedAny : Bool) : Alike e room .line P
      (settle e sub left text resolvedAny) (settle e sub' left text resolvedAny) := by
  induction left generalizing text resolvedAny with
  | zero => exact .refl (does_pure _)
  | succ left ih =>
    unfold settle
    refine .bind hP (pass_alike hP hsub text) fun o => ?_
    split
    · exact .refl (does_pure _)
    · exact .refl (does_pure _)
    · next mid n =>
      split
      · exact .refl (does_pure _)
      · split
        · split
          · next hres =>
            exact .refl (does_bind (does_modify fun _ => .runaway mid hres) fun _ => does_pure _)
          · exact .refl (does_bind (does_pure ()) fun _ => does_pure _)
        · exact ih mid true

theorem processLine_alike (hP : Kept e room P) (hsub : SubAlike e room P sub sub') (line : Line) :
    Alike e room .line P (processLine e sub line) (processLine e sub' line) := by
  unfold processLine
  split
  · exact .bind hP (settle_alike hP hsub _ _ _) fun o => .refl (emitSettled_does o)
  · exact .refl (writeLine_does _)

/-- The lines of a template are processed one after the other, each in a run that shows it. -/
theorem processLines_cons (l : Line) (ls : List Line) (r : Run) :
    processLines e sub (l :: ls) r =
      (processLine e sub l >>= fun _ => processLines e sub ls) (beginLine l.number r) := by
  rw [processLines, Effect.modify_bind, Effect.modify_bind]
  rfl

theorem processLines_alike (hP : Kept e room P) (hsub : SubAlike e room P sub sub')
    (lines : List Line) :
    Alike e room .template P (processLines e sub lines) (processLines e sub' lines) := by
  induction lines with
  | nil => exact .refl (does_pure ())
  | cons l ls ih =>
    have hbegin r : Reaches e room .template r (beginLine l.number r) := .line .refl l.number
    have hrest := Alike.bind hP (processLine_alike hP hsub l).toTemplate fun _ => ih
    refine ⟨fun r => ?_, fun r hr => ?_⟩
    · rw [processLines_cons]
      exact (hbegin r).trans (hrest.does _)
    · rw [processLines_cons, processLines_cons]
      exact hrest.same _ (hP r _ (hbegin r) hr)

theorem processSource_alike (hP : Kept e room P) (hsub : SubAlike e room P sub sub') (s : Source) :
    Alike e room .template P (processSource e sub s) (processSource e sub' s) := by
  refine .bind hP (processLines_alike hP hsub s.lines) fun _ => .refl ?_
  split
  · exact does_pure ()
  · exact does_throw _

/-- Calls that make steps are like themselves in any run. -/
theorem SubDoes.alike (hsub : SubDoes e room sub) : SubAlike e room (fun _ => True) sub sub :=
  fun template isMain setup => .refl (hsub template isMain setup)

theorem kept_true : Kept e room fun _ => True := fun _ _ _ _ => trivial

theorem pass_does (hsub : SubDoes e room sub) (text : List Char) :
    Does e room .line (pass e sub text) := (pass_alike kept_true hsub.alike text).does

theorem processSource_does (hsub : SubDoes e room sub) (s : Source) :
    Does e room .template (processSource e sub s) :=
  (processSource_alike kept_true hsub.alike s).does

end

/-! ## Calls -/

/-- A call for which there is no room fails at once. -/
theorem call_zero (e : Engine) (template : String) (isMain : Bool) (setup : List Change)
    (r : Run) : call e 0 template isMain setup r =
      (.error (.nestingTooDeep e.limits.maxDepth template), r) := rfl

/-- A call for which there is room fails at once when the store does, and otherwise processes the
template between entering and leaving. -/
theorem call_succ (e : Engine) (room : Nat) (template : String) (isMain : Bool)
    (setup : List Change) (r : Run) : call e (room + 1) template isMain setup r =
      match e.store template with
      | .error err => (.error err, r)
      | .ok source => framed (enter template isMain setup) (leave r.current r.arena.size)
          (processSource e (call e room) source) r := by
  rw [call]
  cases e.store template with
  | error err => rfl
  | ok source => exact Effect.get_bind _ r

/-- A sub-template does what the room below it allows, between entering and leaving. -/
theorem call_does (e : Engine) (room : Nat) : SubDoes e room (call e room) := by
  induction room with
  | zero => exact fun template _ _ => does_throw _
  | succ room ih =>
    intro template isMain setup r
    rw [call_succ]
    cases e.store template with
    | error err => exact .refl
    | ok source => exact .call .refl template isMain setup (processSource_does ih source _)

end Engine

end Stencil
