import Stencil.Proofs.Run.Alone
import Stencil.Proofs.Run.Refused

/-!
# One template for many tables

`EACHTABLE` has a template processed for one table after the other. What is written for a table is
its *block*: what the template writes when it is called for this table from the same context, in a
run that has looked up nothing, counted nothing and written nothing. Between two calls nothing has
changed that a template could see (`Between`), so that the calls cannot reach each other, and what
is written is the blocks in a row (`eachTable_blocks`).
-/

namespace Stencil

/-- The calls of a template for the tables `ts`, one after the other. -/
def Action.callsFor (template : String) (ts : List (String × Nat)) : Action (Option String) := do
  Action.forEach ts fun t =>
    Action.callTemplate template false [.bind { table := t.1, index := t.2 }]
  pure none

namespace Engine

/-- The call of a template for a table. -/
def callFor (e : Engine) (template : String) (t : String × Nat) : Gen Unit :=
  callAtDepth e template false [.bind { table := t.1, index := t.2 }]

/-- What a template comes to when it is called for a table from the current context of `r`, in a run
that has looked up nothing, counted nothing and written nothing. -/
def block (e : Engine) (r : Run) (template : String) (t : String × Nat) :
    Except Error Unit × Run :=
  e.callFor template t { r with memo := .empty, report := {}, sink := {} }

/-- The lines of a block. -/
def blockLines (e : Engine) (r : Run) (template : String) (t : String × Nat) : List String :=
  (e.block r template t).2.sink.lines.toList

end Engine

/-- The end `x` of a template that is called for the table `t` in the run `s`, and fails: its block
fails, or the sink refuses a line of the block. -/
inductive BlockFails (e : Engine) (r : Run) (template : String) (t : String × Nat) (s : Run)
    (x : Except Error Unit × Run) : Prop where
  | block (failed : ∃ err, (e.block r template t).1 = .error err)
      (lines : x.2.sink.lines.toList = s.sink.lines.toList ++ e.blockLines r template t)
  | refused (n : Nat) (cause : IoError) (limit : r.sink.limit = some (n, cause))
      (failed : x.1 = .error (.outputUnwritable r.arena.root.output cause))
      (full : n ≤ x.2.sink.lines.size)
      (shorter : x.2.sink.lines.size < s.sink.lines.size + (e.blockLines r template t).length)
      (lines : x.2.sink.lines.toList <+: s.sink.lines.toList ++ e.blockLines r template t)

/-- The end `x` of the calls of a template for the tables `ts`, one after the other from the current
context of `r`. -/
inductive BlocksEnd (e : Engine) (r : Run) (template : String) (ts : List (String × Nat))
    (x : Except Error (Option String) × Run) : Prop where
  /-- No call failed. -/
  | all (result : x.1 = .ok none) (succeed : ∀ t ∈ ts, (e.block r template t).1 = .ok ())
      (lines : x.2.sink.lines.toList =
        r.sink.lines.toList ++ ts.flatMap (e.blockLines r template))
  /-- The call for `t`, which was made in the run `s`, failed, and none was made afterwards. -/
  | failed (done rest : List (String × Nat)) (t : String × Nat) (s : Run) (err : Error)
      (split : ts = done ++ t :: rest)
      (succeed : ∀ u ∈ done, (e.block r template u).1 = .ok ())
      (parent : s.arena = r.arena ∧ s.current = r.current)
      (lines : s.sink.lines.toList =
        r.sink.lines.toList ++ done.flatMap (e.blockLines r template))
      (call : e.callFor template t s = (.error err, x.2)) (result : x.1 = .error err)
      (reason : BlockFails e r template t s (e.callFor template t s))

/-- The run `s` comes between two calls from the current context of `r`. -/
structure Between (p : Provider) (r s : Run) : Prop where
  parent : s.arena = r.arena ∧ s.current = r.current
  memo : s.memo.Faithful p
  sink : s.sink = { r.sink with lines := s.sink.lines }

/-- The end `x` of the call of a template for the table `t` in the run `s`. -/
inductive CallEnd (e : Engine) (r : Run) (template : String) (t : String × Nat) (s : Run)
    (x : Except Error Unit × Run) : Prop where
  | written (result : x.1 = .ok ()) (succeeds : (e.block r template t).1 = .ok ())
      (lines : x.2.sink.lines.toList = s.sink.lines.toList ++ e.blockLines r template t)
      (between : Between e.schema r x.2)
  | failed (err : Error) (result : x.1 = .error err) (reason : BlockFails e r template t s x)

namespace Engine

variable {e : Engine} {r s : Run} {template : String} {t : String × Nat}

/-! ## One call -/

/-- Where no line is refused a call writes the block, and fails where the block does. -/
theorem callFor_sameEnd (hp : e.schema.CaseBlind) (hlocal : e.registry.Local)
    (hlive : r.current < r.arena.size) (hparent : s.arena = r.arena ∧ s.current = r.current)
    (hmemo : s.memo.Faithful e.schema) (hfree : s.sink.limit = none) :
    SameEnd e.schema s.sink.lines 0 r.context.depth (e.callFor template t s)
      (e.block r template t) := by
  have hcontext : s.context = r.context := by rw [Run.context, hparent.1, hparent.2, Run.context]
  refine callsAlike hp hlocal r.context.depth template _ s _ ⟨⟨?_, hlive, ?_, ?_, rfl⟩,
    ⟨hmemo, Memo.faithful_empty _, ?_, ?_, rfl⟩⟩
  · rw [hparent.1, hparent.2]
    exact hlive
  · exact congrArg Context.visible hcontext
  · exact congrArg Context.depth hcontext
  · exact Array.append_empty.symm
  · rw [hfree]
    rfl

/-- A call leaves its caller, and of the sink all but the lines. -/
theorem callFor_between (hs : Between e.schema r s)
    (hmemo : (e.callFor template t s).2.memo.Faithful e.schema) :
    Between e.schema r (e.callFor template t s).2 := by
  obtain ⟨harena, hcurrent⟩ := callAtDepth_frame e template false
    [.bind { table := t.1, index := t.2 }] s
  have hsink := (call_does e (e.limits.maxDepth - s.context.depth) template false
    [.bind { table := t.1, index := t.2 }] s).sink
  refine ⟨⟨harena.trans hs.parent.1, hcurrent.trans hs.parent.2⟩, hmemo, hsink.trans ?_⟩
  rw [hs.sink]
  rfl

/-- A call of which no line is refused has the end `x` that it has when none can be. -/
theorem callEnd_of_sameEnd {x : Except Error Unit × Run} {d : Nat} (hs : Between e.schema r s)
    (hx : SameEnd e.schema s.sink.lines 0 d x (e.block r template t))
    (hresult : (e.callFor template t s).1 = x.1)
    (hlines : (e.callFor template t s).2.sink.lines = x.2.sink.lines)
    (hmemo : (e.callFor template t s).2.memo = x.2.memo) :
    CallEnd e r template t s (e.callFor template t s) := by
  have hwritten : (e.callFor template t s).2.sink.lines.toList =
      s.sink.lines.toList ++ e.blockLines r template t := by
    rw [hlines, hx.twins.effect.sink.lines, Array.toList_append, blockLines]
  have hsame := hx.result
  rw [← hresult] at hsame
  cases hcall : (e.callFor template t s).1 with
  | ok v =>
    rw [hcall] at hsame
    refine .written hcall (Effect.eq_ok_of_toOption hsame.symm) hwritten (callFor_between hs ?_)
    rw [hmemo]
    exact hx.twins.effect.faithful
  | error err =>
    rw [hcall] at hsame
    refine .failed err hcall (.block ?_ hwritten)
    cases hblock : (e.block r template t).1 with
    | ok v =>
      rw [hblock] at hsame
      cases hsame
    | error err' => exact ⟨err', rfl⟩

/-- Wherever it comes among others, a call writes the block, or fails. -/
theorem callFor_end (hp : e.schema.CaseBlind) (hlocal : e.registry.Local)
    (hlive : r.current < r.arena.size) (hs : Between e.schema r s) :
    CallEnd e r template t s (e.callFor template t s) := by
  cases hlimit : s.sink.limit with
  | none =>
    have hsame : SameEnd e.schema s.sink.lines 0 r.context.depth (e.callFor template t s)
        (e.block r template t) := callFor_sameEnd hp hlocal hlive hs.parent hs.memo hlimit
    exact callEnd_of_sameEnd hs hsame rfl rfl rfl
  | some l =>
    obtain ⟨n, cause⟩ := l
    -- the run `s` is one without a limit, capped
    let free : Run := { s with sink := { s.sink with limit := none } }
    have hcapped : s = free.capped n cause := by
      show s = { s with sink := { s.sink with limit := some (n, cause) } }
      rw [← hlimit]
    have hsame : SameEnd e.schema s.sink.lines 0 r.context.depth (e.callFor template t free)
        (e.block r template t) := callFor_sameEnd (s := free) hp hlocal hlive hs.parent hs.memo rfl
    have hunlimited : free.Unlimited r.arena.root.output r.context.depth := by
      refine ⟨rfl, congrArg (fun a => a.root.output) hs.parent.1, ?_⟩
      show (s.arena.get s.current).depth = (r.arena.get r.current).depth
      rw [hs.parent.1, hs.parent.2]
    have hcut : CutEnd n cause r.arena.root.output r.context.depth (e.callFor template t free)
        (e.callFor template t (free.capped n cause)) :=
      callsCut e n cause _ _ template false _ free hunlimited
    rw [← hcapped] at hcut
    cases hcut with
    | whole _ hwhole =>
      refine callEnd_of_sameEnd hs hsame ?_ ?_ ?_
      · rw [hwhole]
      · rw [hwhole]
        rfl
      · rw [hwhole]
        rfl
    | cut hfailed hfull hshorter hwritten =>
      have hlines := hsame.twins.effect.sink.lines
      have hbound : r.sink.limit = some (n, cause) := (congrArg Sink.limit hs.sink).symm.trans hlimit
      refine .failed _ hfailed (.refused n cause hbound hfailed hfull ?_ ?_)
      · have hsize := congrArg Array.size hlines
        rw [Array.size_append] at hsize
        exact hsize ▸ hshorter
      · have hlist := congrArg Array.toList hlines
        rw [Array.toList_append] at hlist
        exact hlist ▸ hwritten

/-! ## One call after the other -/

/-- After calls for the tables `done`, those for the tables `ts` write their blocks, up to the first
one that fails, and leave the caller. -/
theorem calls_end (hp : e.schema.CaseBlind) (hlocal : e.registry.Local)
    (hlive : r.current < r.arena.size) (done ts : List (String × Nat))
    (hs : Between e.schema r s) (hdone : ∀ u ∈ done, (e.block r template u).1 = .ok ())
    (hlines : s.sink.lines.toList =
      r.sink.lines.toList ++ done.flatMap (e.blockLines r template)) :
    let x := perform e (callAtDepth e) (.callsFor template ts) s
    BlocksEnd e r template (done ++ ts) x ∧ x.2.arena = r.arena ∧ x.2.current = r.current := by
  induction ts generalizing done s with
  | nil =>
    rw [List.append_nil]
    exact ⟨.all rfl hdone hlines, hs.parent⟩
  | cons t ts ih =>
    intro x
    have hend : CallEnd e r template t s (e.callFor template t s) :=
      callFor_end hp hlocal hlive hs
    have hx : x = (e.callFor template t >>= fun _ =>
      perform e (callAtDepth e) (.callsFor template ts)) s := rfl
    rw [hx, Effect.bind_eq]
    cases hend with
    | written hresult hsucceeds hwritten hbetween =>
      have hall : ∀ u ∈ done ++ [t], (e.block r template u).1 = .ok () := by
        intro u hu
        rcases List.mem_append.1 hu with hu | hu
        · exact hdone u hu
        · rw [List.mem_singleton.1 hu]
          exact hsucceeds
      have hrest := ih (done ++ [t]) hbetween hall (by
        rw [hwritten, hlines, List.flatMap_append, List.flatMap_singleton, List.append_assoc])
      rw [List.append_assoc, List.singleton_append] at hrest
      revert hresult hrest
      rcases e.callFor template t s with ⟨err | _, s'⟩
      · intro hfailed
        cases hfailed
      · exact fun _ => id
    | failed err hresult hreason =>
      have hparent : (e.callFor template t s).2.arena = s.arena ∧
          (e.callFor template t s).2.current = s.current := callAtDepth_frame e template false _ s
      have hcall : e.callFor template t s = (.error err, (e.callFor template t s).2) :=
        Prod.ext hresult rfl
      generalize (e.callFor template t s).2 = s' at hcall hparent
      rw [hcall] at hreason ⊢
      exact ⟨.failed done ts t s err rfl hdone hs.parent hlines hcall rfl (hcall ▸ hreason),
        hparent.1.trans hs.parent.1, hparent.2.trans hs.parent.2⟩

/-- **The blocks of `EACHTABLE` are independent.** For the triggers of both backends and a schema
that is given as data: wherever in a run it is resolved, `EACHTABLE` writes one block after the
other for the tables whose names begin with the given text, both in upper case, in the order of the
schema, and for all tables when no text is given. When a call fails its error is the result, the
blocks before it have been written, and no further call is made. The caller's context is left as it
was. -/
theorem eachTable_blocks (b : Backend) (hregistry : e.registry = b.registry) (schema : Schema)
    (hschema : e.schema = schema.provider) (q : Request) (source : Source) (now : Moment)
    (sink : Sink) (g : Stage) (hgoes : Goes e (e.start q source now sink) g) (ps : List String)
    (template : String) (hparam : param ps 0 = some template) :
    let chosen := schema.listing.filter fun t => (param ps 1).all fun start =>
      (Text.upper start).toList.isPrefixOf (Text.upper t.1).toList
    let x := perform e (callAtDepth e) (Shared.eachTable.resolve ps) g.run
    e.registry.find? "EACHTABLE" = some Shared.eachTable ∧
      BlocksEnd e g.run template chosen x ∧
      x.2.arena = g.run.arena ∧ x.2.current = g.run.current := by
  intro chosen x
  have hfound : e.registry.find? "EACHTABLE" = some Shared.eachTable := by
    rw [hregistry]
    cases b <;> rfl
  have hp : e.schema.CaseBlind := hschema ▸ schema.provider_caseBlind
  have hlocal : e.registry.Local := hregistry ▸ b.registry_local
  have hlive : g.run.current < g.run.arena.size :=
    (hgoes.live (start_live e q source now sink)).current
  have hmemo : g.run.memo.Faithful e.schema :=
    hgoes.invariant (fun _ _ hmove => hmove.faithful hp) (Memo.faithful_empty _)
  have hchosen : Shared.tablesFrom e.schema.listing (param ps 1) = chosen := by
    rw [hschema]
    cases hstart : param ps 1 with
    | none =>
      simp only [chosen, hstart]
      exact (List.filter_eq_self.2 fun _ _ => rfl).symm
    | some start =>
      simp only [chosen, hstart]
      rfl
  have hx : x = perform e (callAtDepth e) (.callsFor template chosen) g.run := by
    rw [← hchosen]
    simp only [x, Shared.eachTable, hparam]
    rfl
  rw [hx]
  exact ⟨hfound, calls_end hp hlocal hlive [] chosen ⟨⟨rfl, rfl⟩, hmemo, rfl⟩
    (List.forall_mem_nil _) (List.append_nil _).symm⟩

/-- Three tables, two of which have names that begin alike. -/
def threeTables : Schema :=
  Schema.ofTables [{ name := "Rate", index := 1 }, { name := "FEE", index := 2 },
    { name := "ROLE", index := 3 }]

/-- An engine with a template that would show that it was processed before. -/
def rememberer : Engine where
  registry := Backend.cobol.registry
  schema := threeTables.provider
  store t := if t = "each" then .ok ⟨[⟨1, "&GET|seen|&TABNAME|"⟩, ⟨2, "&SET|seen|again |"⟩], none⟩
    else .error (.templateNotFound t .notFound)
  limits := {}

/-- The two tables have their blocks, in which nothing shows of the other one. -/
theorem rememberer_blocks :
    let g := rememberer.start rateRequest ⟨[], none⟩ ⟨0⟩ {}
    let chosen := threeTables.listing.filter fun t => (param ["each", " r "] 1).all fun start =>
      (Text.upper start).toList.isPrefixOf (Text.upper t.1).toList
    let x := perform rememberer (callAtDepth rememberer) (Shared.eachTable.resolve ["each", " r "])
      g.run
    chosen = [("Rate", 1), ("ROLE", 3)] ∧ x.2.sink.lines = #["Rate", "ROLE"] ∧
      param ["each", " r "] 0 = some "each" ∧
      rememberer.registry.find? "EACHTABLE" = some Shared.eachTable ∧
      BlocksEnd rememberer g.run "each" chosen x ∧
      x.2.arena = g.run.arena ∧ x.2.current = g.run.current :=
  ⟨by decide +kernel, by decide +kernel, by decide +kernel,
    eachTable_blocks .cobol rfl threeTables rfl rateRequest ⟨[], none⟩ ⟨0⟩ {} _ .refl
      ["each", " r "] "each" (by decide +kernel)⟩

end Engine

end Stencil
