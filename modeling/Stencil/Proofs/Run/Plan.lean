import Stencil.Proofs.Run.Steps

/-!
# Plans

What the engine does with a template can be written down before anything is known of the run: it is
a tree whose nodes act on the run, read it, look up the fields of the bound table and call
sub-templates. `follow_sourcePlan` says that following the plan of a template is processing the
template, so that a property of all plans, or of two runs with one plan, takes a single induction.

Of the engine a plan knows the `Rules` only. Engines that differ in their schema, in their store or
in the nesting that they allow have the same plans.
-/

namespace Stencil

/-- What triggers read of a run. -/
structure Sight where
  context : Context
  /-- The template names from the current context up to the root. -/
  ancestry : List String
  /-- The number of live contexts. -/
  live : Nat
  limits : Limits
  report : Report
  tables : List (String × Nat)

/-- What triggers read of the run `r`. -/
def Engine.sight (e : Engine) (r : Run) : Sight where
  context := r.context
  ancestry := (r.arena.ancestry r.current).map (·.template)
  live := r.arena.size
  limits := e.limits
  report := r.report
  tables := e.schema.listing

/-! ## Instructions -/

/-- What is done to a run in one go, without the engine's help. -/
inductive Instruction where
  | beginLine (number : Nat)
  | beginPass
  | noteUnknown (t : Token)
  | noteRunaway (text : List Char)
  | showToken (text : String) (column : Nat)
  | hideToken
  | change (c : Change)
  | write (line : String)
  | flush

namespace Instruction

/-- The run after an instruction. Only writing and flushing may fail. -/
def apply (r : Run) : Instruction → Except Error Run
  | beginLine number => .ok (Engine.beginLine number r)
  | beginPass => .ok (r.mapReport fun p => { p with passes := p.passes + 1 })
  | noteUnknown t => .ok (r.mapReport (·.noteUnknown (r.unresolved t.source)))
  | noteRunaway text => .ok (r.mapReport (·.noteRunaway (r.unresolved text)))
  | showToken text column => .ok (r.mapContext fun c => { c with token := some text, column })
  | hideToken => .ok (r.mapContext fun c => { c with token := none })
  | change c => .ok (r.mapContext (·.apply c))
  | write line =>
    match r.sink.write line with
    | .error cause => .error (r.unwritable cause)
    | .ok sink => .ok { r with
        sink
        report := { r.report with linesWritten := r.report.linesWritten + 1 } }
  | flush =>
    match r.sink.flush with
    | .error cause => .error (r.unwritable cause)
    | .ok sink => .ok { r with sink }

variable {r s : Run}

theorem apply_write {line : String} (h : (write line).apply r = .ok s) :
    ∃ sink, r.sink.write line = .ok sink ∧ s = { r with
      sink
      report := { r.report with linesWritten := r.report.linesWritten + 1 } } := by
  simp only [apply] at h
  split at h
  · cases h
  · next sink hsink =>
    cases h
    exact ⟨sink, hsink, rfl⟩

theorem apply_flush (h : flush.apply r = .ok s) :
    ∃ sink, r.sink.flush = .ok sink ∧ s = { r with sink } := by
  simp only [apply] at h
  split at h
  · cases h
  · next sink hsink =>
    cases h
    exact ⟨sink, hsink, rfl⟩

/-- An instruction as a computation, which leaves the run as it is when it fails. -/
def follow (i : Instruction) : Gen Unit := fun r =>
  match i.apply r with
  | .ok s => (.ok (), s)
  | .error err => (.error err, r)

end Instruction

/-! ## Plans -/

/-- What is to be done to come to a value. -/
inductive Plan (α : Type) : Type where
  | done (value : α)
  | fail (err : Error)
  | look (next : Sight → Plan α)
  | act (i : Instruction) (next : Plan α)
  /-- Looks up the fields of the bound table, or its key fields. -/
  | fields (keysOnly : Bool) (next : Option (List Field) → Plan α)
  /-- Has a sub-template processed. -/
  | call (template : String) (isMain : Bool) (setup : List Change) (next : Plan α)

namespace Plan

variable {α β : Type}

/-- The plan `p` followed by what `f` makes of its value. -/
def bind (p : Plan α) (f : α → Plan β) : Plan β :=
  match p with
  | done v => f v
  | fail err => fail err
  | look k => look fun v => (k v).bind f
  | act i q => act i (q.bind f)
  | fields b k => fields b fun fs => (k fs).bind f
  | call t m s q => call t m s (q.bind f)

instance : Monad Plan where
  pure := done
  bind := bind

/-- A plan that comes to nothing but an instruction. -/
def perform (i : Instruction) : Plan Unit := act i (done ())

/-- Does what a plan says, with `sub` for the calls. -/
def follow (e : Engine) (sub : Engine.Sub) : Plan α → Gen α
  | done v => pure v
  | fail err => throw err
  | look k => do (k (e.sight (← get))).follow e sub
  | act i p => do
    i.follow
    p.follow e sub
  | fields b k => do (k (← e.tableFields b)).follow e sub
  | call t m s p => do
    sub t m s
    p.follow e sub

end Plan

/-- What the plan of a template depends on. -/
structure Rules where
  find? : String → Option Trigger
  /-- What is left of a token without a trigger. -/
  unknownText : Token → List Char
  /-- Whether a token of the text has a trigger. -/
  resolvable : List Char → Bool
  /-- The number of passes that a line may take. -/
  passes : Nat

/-- The rules of an engine. -/
def Engine.rules (e : Engine) : Rules where
  find? := e.registry.find?
  unknownText := e.unknownText
  resolvable := e.resolvable
  passes := e.limits.passes

/-! ## The plan of a template -/

/-- The plan of an action. -/
def Action.plan {α : Type} : Action α → Plan α
  | .done v => .done v
  | .fail m => .fail (.other m)
  | .context k => .look fun v => (k v.context).plan
  | .ancestry k => .look fun v => (k v.ancestry).plan
  | .live k => .look fun v => (k v.live).plan
  | .limits k => .look fun v => (k v.limits).plan
  | .report k => .look fun v => (k v.report).plan
  | .tables k => .look fun v => (k v.tables).plan
  | .fields b k => .fields b fun fs => (k fs).plan
  | .change c k => .act (.change c) k.plan
  | .write l k => .act (.write l) k.plan
  | .call t m s k => .call t m s k.plan

namespace Rules

open Engine (Outcome Settled valueText valueLines)

/-- The plan for a token with a trigger. -/
def tokenPlan (column : Nat) (t : Token) (trigger : Trigger) : Plan (Option String) := do
  .perform (.showToken (String.ofList (t.sourceUpTo trigger.maxParams)) column)
  let value ← (trigger.resolve (t.paramsUpTo trigger.maxParams)).plan
  .perform .hideToken
  pure value

/-- The plan for the pieces of a text. -/
def piecesPlan (u : Rules) : (column : Nat) → List Piece → Plan Outcome
  | _, [] => pure (.rewritten [] 0)
  | column, .plain c :: ps => do
    let o ← piecesPlan u (advance column [c]) ps
    pure (o.kept [c])
  | column, .token t :: ps =>
    match u.find? t.name with
    | none => do
      .perform (.noteUnknown t)
      let o ← piecesPlan u (advance column t.source) ps
      pure (o.kept (u.unknownText t))
    | some trigger => do
      let value ← tokenPlan column t trigger
      if trigger.replacesLine then pure (.replaced value)
      else
        let o ← piecesPlan u (advance column t.source) ps
        pure (o.resolved (valueText value ++ t.sourceBeyond trigger.maxParams))

/-- The plan for one pass over a text. -/
def passPlan (u : Rules) (text : List Char) : Plan Outcome := do
  .perform .beginPass
  piecesPlan u 0 (pieces text)

/-- The plan for the passes over a text. -/
def settlePlan (u : Rules) : (left : Nat) → (text : List Char) → (resolvedAny : Bool) →
    Plan Settled
  | 0, text, resolvedAny => pure (.text text resolvedAny)
  | left + 1, text, resolvedAny => do
    match ← passPlan u text with
    | .replaced value => pure (.replaced value)
    | .rewritten text 0 => pure (.text text resolvedAny)
    | .rewritten text (_ + 1) =>
      if !carriesMacros text then pure (.text text true)
      else if left = 0 then
        if u.resolvable text then do
          .perform (.noteRunaway text)
          pure (.text text true)
        else pure (.text text true)
      else settlePlan u left text true

/-- The plan for writing lines. -/
def writePlan : List String → Plan Unit
  | [] => pure ()
  | l :: ls => do
    .perform (.write l)
    writePlan ls

/-- The plan for writing what a line has become. -/
def emitPlan : Settled → Plan Unit
  | .replaced none => pure ()
  | .replaced (some v) => if v.isEmpty then pure () else writePlan (valueLines v.toList)
  | .text final resolvedAny =>
    if final.isEmpty && resolvedAny then pure () else writePlan (valueLines final)

/-- The plan for a line. -/
def linePlan (u : Rules) (line : Line) : Plan Unit :=
  if carriesMacros line.text.toList then do
    emitPlan (← settlePlan u u.passes line.text.toList false)
  else .perform (.write line.text)

/-- The plan for the lines of a template. -/
def linesPlan (u : Rules) : List Line → Plan Unit
  | [] => pure ()
  | l :: ls => do
    .perform (.beginLine l.number)
    linePlan u l
    linesPlan u ls

/-- The plan for a template. -/
def sourcePlan (u : Rules) (s : Source) : Plan Unit := do
  linesPlan u s.lines
  match s.failure with
  | none => pure ()
  | some cause => .fail (.io cause)

/-- The plan for the end of a whole run. -/
def finishPlan : Plan Unit :=
  .look fun v => if v.context.isMain then .perform .flush else pure ()

/-- The plan for a whole run over a source. -/
def sessionPlan (u : Rules) (s : Source) : Plan Unit := do
  sourcePlan u s
  finishPlan

end Rules

/-! ## Following the plan of a template -/

namespace Plan

variable {α β : Type} {e : Engine} {sub : Engine.Sub}

@[simp]
theorem follow_pure (v : α) : (pure v : Plan α).follow e sub = pure v := rfl

@[simp]
theorem follow_perform (i : Instruction) : (perform i).follow e sub = i.follow := by
  simp [perform, follow]

theorem bind_bind {γ : Type} (p : Plan α) (f : α → Plan β) (g : β → Plan γ) :
    p >>= f >>= g = p >>= fun v => f v >>= g := by
  show (p.bind f).bind g = p.bind fun v => (f v).bind g
  induction p with
  | done v => rfl
  | fail err => rfl
  | look k ih => simp only [bind, ih]
  | act i p ih => simp only [bind, ih]
  | fields b k ih => simp only [bind, ih]
  | call t m s p ih => simp only [bind, ih]

@[simp]
theorem follow_ite (c : Prop) [Decidable c] (p q : Plan α) :
    (if c then p else q).follow e sub = if c then p.follow e sub else q.follow e sub :=
  apply_ite (follow e sub) c p q

theorem bind_done (p : Plan α) : p >>= pure = p := by
  show p.bind done = p
  induction p with
  | done v => rfl
  | fail err => rfl
  | look k ih => simp only [bind, ih]
  | act i p ih => simp only [bind, ih]
  | fields b k ih => simp only [bind, ih]
  | call t m s p ih => simp only [bind, ih]

/-- Plans in a row are followed in a row. -/
@[simp]
theorem follow_bind (p : Plan α) (f : α → Plan β) :
    (p >>= f).follow e sub = p.follow e sub >>= fun a => (f a).follow e sub := by
  show (p.bind f).follow e sub = _
  induction p with
  | done v => rw [bind, follow, pure_bind]
  | fail err => rfl
  | look k ih => simp only [bind, follow, ih, bind_assoc]
  | act i p ih => simp only [bind, follow, ih, bind_assoc]
  | fields b k ih => simp only [bind, follow, ih, bind_assoc]
  | call t m s p ih => simp only [bind, follow, ih, bind_assoc]

end Plan

namespace Engine

open Plan Rules

variable {e : Engine} {sub : Sub} {α : Type}

theorem follow_write (line : String) : (Instruction.write line).follow = writeLine line := by
  funext r
  rw [Instruction.follow, Instruction.apply, writeLine, Effect.get_bind]
  cases r.sink.write line <;> rfl

theorem follow_action (a : Action α) : a.plan.follow e sub = perform e sub a := by
  induction a with
  | done v => rfl
  | fail m => rfl
  | context k ih | ancestry k ih | live k ih | report k ih =>
    simp only [Action.plan, follow, perform, ih, sight]
  | limits k ih | tables k ih =>
    simp only [Action.plan, follow, perform, ih, sight]
    rfl
  | fields b k ih => simp only [Action.plan, follow, perform, ih]
  | change c k ih =>
    simp only [Action.plan, follow, perform, ih]
    rfl
  | write l k ih => simp only [Action.plan, follow, perform, ih, follow_write]
  | call t m s k ih => simp only [Action.plan, follow, perform, ih]

theorem follow_tokenPlan (column : Nat) (t : Token) (trigger : Trigger) :
    (tokenPlan column t trigger).follow e sub = resolveToken e sub column t trigger := by
  simp only [tokenPlan, follow_bind, follow_perform, follow_action, follow_pure, resolveToken]
  rfl

theorem follow_piecesPlan (column : Nat) (ps : List Piece) :
    (piecesPlan e.rules column ps).follow e sub = resolvePieces e sub column ps := by
  induction ps generalizing column with
  | nil => rfl
  | cons p ps ih =>
    cases p with
    | plain c => simp only [piecesPlan, follow_bind, follow_pure, ih, resolvePieces]
    | token t =>
      rw [piecesPlan, resolvePieces]
      show Plan.follow e sub (match e.registry.find? t.name with | none => _ | some trigger => _) = _
      cases e.registry.find? t.name with
      | none =>
        simp only [follow_bind, follow_perform, follow_pure, ih]
        rfl
      | some trigger =>
        simp only [follow_bind, follow_tokenPlan]
        congr 1
        funext value
        split
        · rfl
        · simp only [follow_bind, follow_pure, ih]

theorem follow_passPlan (text : List Char) :
    (passPlan e.rules text).follow e sub = pass e sub text := by
  simp only [passPlan, follow_bind, follow_perform, follow_piecesPlan]
  rfl

theorem follow_settlePlan (left : Nat) (text : List Char) (resolvedAny : Bool) :
    (settlePlan e.rules left text resolvedAny).follow e sub =
      settle e sub left text resolvedAny := by
  induction left generalizing text resolvedAny with
  | zero => rfl
  | succ left ih =>
    rw [settlePlan, settle, follow_bind, follow_passPlan]
    congr 1
    funext o
    cases o with
    | replaced value => rfl
    | rewritten mid n =>
      cases n with
      | zero => rfl
      | succ n =>
        cases hmid : carriesMacros mid with
        | false => simp [hmid]
        | true =>
          cases left with
          | zero =>
            cases hres : e.resolvable mid with
            | false => simp [rules, hmid, hres]
            | true =>
              simp only [rules, hmid, hres, if_true]
              rfl
          | succ left =>
            simp only [hmid]
            exact ih mid true

theorem follow_writePlan (lines : List String) :
    (writePlan lines).follow e sub = writeLines lines := by
  induction lines with
  | nil => rfl
  | cons l ls ih => simp only [writePlan, follow_bind, follow_perform, follow_write, ih, writeLines]

theorem follow_emitPlan (o : Settled) : (emitPlan o).follow e sub = emitSettled o := by
  cases o with
  | replaced v =>
    cases v with
    | none => rfl
    | some v => simp only [emitPlan, follow_ite, follow_writePlan, follow_pure, emitSettled, emit]
  | text final resolvedAny =>
    simp only [emitPlan, follow_ite, follow_writePlan, follow_pure, emitSettled, emit]

theorem follow_linePlan (line : Line) :
    (linePlan e.rules line).follow e sub = processLine e sub line := by
  simp only [linePlan, follow_ite, follow_bind, follow_perform, follow_write, follow_emitPlan,
    processLine]
  rw [← follow_settlePlan]
  rfl

theorem follow_linesPlan (lines : List Line) :
    (linesPlan e.rules lines).follow e sub = processLines e sub lines := by
  induction lines with
  | nil => rfl
  | cons l ls ih =>
    simp only [linesPlan, follow_bind, follow_perform, follow_linePlan, ih]
    rfl

/-- Following the plan of a template is processing the template. -/
theorem follow_sourcePlan (s : Source) :
    (sourcePlan e.rules s).follow e sub = processSource e sub s := by
  simp only [sourcePlan, follow_bind, follow_linesPlan, processSource]
  congr 1
  funext _
  cases s.failure <;> rfl

theorem follow_finishPlan (r : Run) : finishPlan.follow e sub r = finish r := by
  rw [finishPlan, follow, finish, Effect.get_bind, Effect.get_bind]
  show Plan.follow e sub (if r.context.isMain then _ else _) r = _
  split
  · next hmain =>
    rw [follow_perform, Instruction.follow, Instruction.apply]
    cases r.sink.flush <;> rfl
  · rfl

/-- Following the plan of a whole run is processing the template and finishing. -/
theorem follow_sessionPlan (s : Source) (r : Run) :
    (sessionPlan e.rules s).follow e sub r = (processSource e sub s >>= fun _ => finish) r := by
  rw [sessionPlan, follow_bind, follow_sourcePlan, Effect.bind_eq, Effect.bind_eq]
  simp only [follow_finishPlan]

end Engine

end Stencil
