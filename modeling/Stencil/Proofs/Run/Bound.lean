import Stencil.Proofs.Run.Alone
import Stencil.Proofs.Run.Flushed
import Stencil.Proofs.Schema.Named

/-!
# Bound tables

A table is bound by the request, by `TABLE`, by `EACHTABLE` for a sub-template, or because the
caller has it bound. `Plan.Coherent` says of a plan that whatever it binds has the index of the
schema's table of that name, as long as it is followed by an engine with that schema; the plans of
templates are such, for the triggers of both backends (`Backend.coherent_rules`). So are then all
tables bound at any stage (`Goes.coherent`), and since the memo answers for each spelling of a name
as the schema does, index and fields belong to one table (`bound_table_coherent`).
-/

namespace Stencil

open Text

/-! ## Plans that bind coherently -/

/-- If the change binds a table, the binding is coherent. -/
def Change.Coherent (s : Schema) : Change → Prop
  | bind b => b.Coherent s
  | _ => True

/-- If the instruction binds a table, the binding is coherent. -/
def Instruction.Coherent (s : Schema) : Instruction → Prop
  | change c => c.Coherent s
  | _ => True

namespace Plan

variable {α β : Type} {s : Schema}

/-- Where the tables that triggers see are those of the schema, the plan binds coherently, and for
sub-templates, too. -/
def Coherent (s : Schema) : Plan α → Prop
  | done _ => True
  | fail _ => True
  | look k => ∀ v, v.tables = s.listing → (k v).Coherent s
  | act i p => i.Coherent s ∧ p.Coherent s
  | fields _ k => ∀ fs, (k fs).Coherent s
  | call _ _ setup p => (∀ c ∈ setup, c.Coherent s) ∧ p.Coherent s

theorem Coherent.bind {p : Plan α} {f : α → Plan β} (hp : p.Coherent s)
    (hf : ∀ v, (f v).Coherent s) : (p >>= f).Coherent s := by
  show (p.bind f).Coherent s
  induction p with
  | done v => exact hf v
  | fail err => trivial
  | look k ih => exact fun v hv => ih v (hp v hv)
  | act i p ih => exact ⟨hp.1, ih hp.2⟩
  | fields b k ih => exact fun v => ih v (hp v)
  | call t m c p ih => exact ⟨hp.1, ih hp.2⟩

end Plan

/-- The instructions that are not given by triggers bind nothing. -/
theorem Instruction.coherent_of_changes {s : Schema} {i : Instruction} (hi : i.changes = false) :
    i.Coherent s := by
  cases i with
  | change c => cases hi
  | beginLine | beginPass | noteUnknown | noteRunaway | showToken | hideToken | write | flush =>
    trivial

/-- A trigger that binds coherently, whatever its parameters. -/
def Trigger.Coherent (s : Schema) (t : Trigger) : Prop := ∀ ps, (t.resolve ps).plan.Coherent s

/-- Rules whose triggers bind coherently. -/
def Rules.Coherent (s : Schema) (u : Rules) : Prop :=
  ∀ name t, u.find? name = some t → t.Coherent s

/-- The plans of templates bind coherently where the triggers do. -/
theorem Rules.coherent_law {s : Schema} {u : Rules} (hu : u.Coherent s) :
    Law u fun _ p _ _ => p.Coherent s where
  done _ _ := trivial
  fail _ _ _ := trivial
  perform _ hchanges _ := ⟨Instruction.coherent_of_changes hchanges, trivial⟩
  action found ps _ := hu _ _ found ps
  bind := .bind
  mono h _ := h

/-! ## The backends -/

variable {s : Schema}

/-- An emitter binds nothing. -/
theorem Emitter.coherent_trigger (m : Emitter) : m.trigger.Coherent s := by
  intro ps
  rw [m.resolve_eq]
  exact fun _ _ _ => trivial

namespace Shared

/-- `TABLE` takes the index from the list of tables. -/
theorem coherent_bindTable : bindTable.Coherent s := by
  intro ps
  simp only [bindTable]
  cases param ps 0 with
  | none => exact ⟨trivial, trivial⟩
  | some name =>
    intro v hv
    refine ⟨?_, trivial⟩
    show (Binding.ofListing v.tables name).Coherent s
    rw [hv]
    exact Binding.ofListing_coherent s name

theorem mem_of_mem_tablesFrom {listing : List (String × Nat)} {start : Option String}
    {entry : String × Nat} (h : entry ∈ tablesFrom listing start) : entry ∈ listing := by
  cases start with
  | none => exact h
  | some text => exact (List.mem_filter.1 h).1

/-- `EACHTABLE` binds the entries of the list. -/
theorem coherent_eachTable (hs : Schema.Distinct s.tables) : eachTable.Coherent s := by
  have hcalls (template : String) (ts : List (String × Nat)) (hts : ∀ t ∈ ts, t ∈ s.listing) :
      ((Action.forEach ts fun t => Action.callTemplate template false
        [.bind { table := t.1, index := t.2 }]).bind fun _ => .done none : Action (Option String)
      ).plan.Coherent s := by
    induction ts with
    | nil => trivial
    | cons t ts ih =>
      refine ⟨fun c hc => ?_, ih fun u hu => hts u (List.mem_cons_of_mem t hu)⟩
      cases List.mem_singleton.1 hc
      exact Binding.entry_coherent hs (hts t List.mem_cons_self)
  intro ps
  simp only [eachTable]
  cases param ps 0 with
  | none => trivial
  | some template =>
    intro v hv
    refine hcalls template (tablesFrom v.tables (param ps 1)) fun t ht => ?_
    rw [← hv]
    exact mem_of_mem_tablesFrom ht

theorem coherent_triggers (hs : Schema.Distinct s.tables) : ∀ t ∈ triggers, t.Coherent s := by
  have hcontext {name summary : String} {text : Context → String} :
      (ofContext name summary text).Coherent s := fun _ _ _ => trivial
  have hconditional {name summary : String} {keepsMatch : Bool} :
      (conditional name summary keepsMatch).Coherent s := fun _ _ _ => trivial
  have htext {name summary : String} {f : String → String} :
      (ofText name summary f).Coherent s := fun _ => trivial
  have hinclude : subTemplate.Coherent s := by
    intro ps
    simp only [subTemplate]
    cases param ps 0 with
    | none => trivial
    | some template => exact ⟨List.forall_mem_nil _, trivial⟩
  have hset : setSlot.Coherent s := by
    intro ps
    simp only [setSlot]
    cases param ps 0 with
    | none => trivial
    | some slot => exact ⟨trivial, trivial⟩
  simp only [triggers, List.forall_mem_cons]
  exact ⟨hconditional, hconditional, hinclude, coherent_eachTable hs, hcontext, hcontext, hcontext,
    hcontext, fun _ => ⟨trivial, trivial⟩, coherent_bindTable, hcontext, hcontext, hset,
    fun _ _ _ => trivial, htext, htext, fun _ _ _ => trivial, hcontext, List.forall_mem_nil _⟩

end Shared

theorem Cobol.coherent_triggers : ∀ t ∈ triggers, t.Coherent s := by
  have hemitters : ∀ t ∈ (sqlEmitters ++ storageEmitters).map Emitter.trigger, t.Coherent s := by
    intro t ht
    obtain ⟨m, -, rfl⟩ := List.mem_map.1 ht
    exact m.coherent_trigger
  have hcomment : comment.Coherent s := fun _ => trivial
  have hheader : header.Coherent s := fun _ _ _ => trivial
  simp only [triggers, List.cons_append, List.nil_append, List.forall_mem_cons]
  exact ⟨hcomment, hheader, hemitters⟩

theorem Java.coherent_triggers : ∀ t ∈ triggers, t.Coherent s := by
  have hemitters : ∀ t ∈ emitters.map Emitter.trigger, t.Coherent s := by
    intro t ht
    obtain ⟨m, -, rfl⟩ := List.mem_map.1 ht
    exact m.coherent_trigger
  have hcomment : comment.Coherent s := fun _ _ _ => trivial
  have hclass : className.Coherent s := fun _ _ _ => trivial
  simp only [triggers, List.cons_append, List.nil_append, List.forall_mem_cons]
  exact ⟨hcomment, hclass, hemitters⟩

/-- The triggers of a backend bind coherently. -/
theorem Backend.coherent_rules {b : Backend} {e : Engine} (h : e.registry = b.registry)
    (hs : Schema.Distinct s.tables) : e.rules.Coherent s := by
  intro name t hfind
  have hfound : b.registry.find? name = some t := by rwa [← h]
  rcases mem_of_find? hfound with hshared | hcobol | hjava
  · exact Shared.coherent_triggers hs t hshared
  · exact Cobol.coherent_triggers t hcobol
  · exact Java.coherent_triggers t hjava

/-! ## The tables that are bound -/

/-- If a table is bound in the context, the binding is coherent. -/
def Context.Coherent (s : Schema) (c : Context) : Prop := ∀ b, c.table = some b → b.Coherent s

theorem Context.Coherent.apply {c : Context} {d : Change} (hc : c.Coherent s)
    (hd : d.Coherent s) : (c.apply d).Coherent s := by
  cases d with
  | bind b =>
    rintro b' hb'
    cases hb'
    exact hd
  | unbind => exact fun _ hb => nomatch hb
  | linkage | programName | slot => exact hc

theorem Context.Coherent.applyAll {c : Context} {ds : List Change} (hc : c.Coherent s)
    (hds : ∀ d ∈ ds, d.Coherent s) : (c.applyAll ds).Coherent s := by
  induction ds generalizing c with
  | nil => exact hc
  | cons d ds ih =>
    exact ih (hc.apply (hds d List.mem_cons_self)) fun d' hd' => hds d' (List.mem_cons_of_mem d hd')

/-- All live contexts have coherent bindings. -/
def Run.Coherent (s : Schema) (r : Run) : Prop := ∀ c ∈ r.arena.contexts, c.Coherent s

namespace Engine

variable {e : Engine} {g h : Stage} {r r' : Run}

theorem apply_coherent {i : Instruction} (hi : i.apply r = .ok r') (hbinds : i.Coherent s)
    (hr : r.Coherent s) : r'.Coherent s := by
  cases i with
  | change c =>
    cases hi
    exact Arena.forall_contexts_modify (fun _ hc => hc.apply hbinds) hr
  | beginLine | showToken | hideToken =>
    cases hi
    exact Arena.forall_contexts_modify (fun _ hc => hc) hr
  | beginPass | noteUnknown | noteRunaway =>
    cases hi
    exact hr
  | write =>
    obtain ⟨sink, -, rfl⟩ := Instruction.apply_write hi
    exact hr
  | flush =>
    obtain ⟨sink, -, rfl⟩ := Instruction.apply_flush hi
    exact hr

/-- A sub-template has the table of its caller, none if it is main, or the one that is bound for
it. -/
theorem enter_coherent (template : String) (isMain : Bool) {setup : List Change}
    (hsetup : ∀ c ∈ setup, c.Coherent s) (hr : r.Coherent s) :
    (enter template isMain setup r).Coherent s := by
  intro c hc
  have hc : c ∈ r.arena.contexts ++ [_] := hc
  rcases List.mem_append.1 hc with hc | hc
  · exact hr c hc
  · rw [List.mem_singleton.1 hc]
    refine Context.Coherent.applyAll ?_ hsetup
    intro b hb
    have hb : (if isMain then none else r.context.table) = some b := hb
    split at hb
    · cases hb
    · exact hr _ r.context_mem b hb

theorem lasts_coherent (hschema : e.schema = s.provider) : Plan.Lasts e (Plan.Coherent s) where
  fail _ := trivial
  look h r := h (e.sight r) (by show e.schema.listing = s.listing; rw [hschema]; rfl)
  act h := h.2
  fields h fs := h fs
  call h := h.2

/-- From one stage to the next, bindings stay coherent. -/
theorem next_coherent (hnext : e.next g = some h) (hg : g.plan.Coherent s)
    (hr : g.run.Coherent s) : h.run.Coherent s := by
  cases next_eq_some_iff.1 hnext with
  | returned | aborted => exact fun c hc => hr c (Arena.mem_contexts_of_release hc)
  | looked | failed => exact hr
  | acted hs => exact apply_coherent hs hg.1 hr
  | @answered r b =>
    obtain heq | ⟨_, _, -, heq⟩ | ⟨_, _, -, heq⟩ := tableFields_cases e b r <;> rw [heq] <;>
      exact hr
  | called => exact enter_coherent _ _ hg.1 hr

theorem begin_coherent (hschema : e.schema = s.provider) (q : Request) (now : Moment)
    (sink : Sink) : (e.begin q now sink).Coherent s := by
  intro c hc
  rw [List.mem_singleton.1 hc]
  refine Context.Coherent.applyAll (fun _ hb => nomatch hb) fun d hd => ?_
  unfold requestSetup at hd
  split at hd
  · cases hd
  · next name _ =>
    rw [List.mem_singleton.1 hd]
    show (Binding.ofListing e.schema.listing name).Coherent s
    rw [hschema]
    exact Binding.ofListing_coherent s name

/-- At all stages of a run, the tables that are bound have the indices of the schema's tables. -/
theorem Goes.coherent (hrules : e.rules.Coherent s) (hschema : e.schema = s.provider)
    {q : Request} {source : Source} {now : Moment} {sink : Sink}
    (hgoes : Goes e (e.start q source now sink) g) : g.run.Coherent s := by
  suffices g.Leaves (Plan.Coherent s) ∧ g.run.Coherent s from this.2
  have hsource (source : Source) : (e.rules.sourcePlan source).Coherent s :=
    (Rules.coherent_law hrules).source source
  induction hgoes with
  | refl =>
    refine ⟨⟨(hsource source).bind fun _ v _ => ?_, List.forall_mem_nil _⟩,
      begin_coherent hschema q now sink⟩
    show (if v.context.isMain then Plan.perform .flush else pure () : Plan Unit).Coherent s
    split
    · exact ⟨trivial, trivial⟩
    · trivial
  | tail _ hnext ih =>
    exact ⟨next_leaves (lasts_coherent hschema) (fun _ source _ => hsource source) hnext ih.1,
      next_coherent hnext ih.1.plan ih.2⟩

/-! ## Index and fields -/

/-- What a look-up for the bound table gives, when its fields come from the schema. -/
theorem tableFields_bound {b : Binding} (hschema : e.schema = s.provider)
    (hmemo : r.memo.Faithful e.schema) (hbound : r.context.table = some b)
    (hfields : b.fields = none) (keysOnly : Bool) :
    (e.tableFields keysOnly r).1 = .ok ((s.find? b.table).map (·.lookedUp keysOnly)) := by
  rw [tableFields_result, hbound, Option.bind_some, hfields, ← s.answer_provider, ← hschema]
  have hp : e.schema.CaseBlind := hschema ▸ s.provider_caseBlind
  rw [(hmemo.lookup hp b.table keysOnly).1]

/-- **A bound table is one of the schema's.** For the triggers of both backends and a schema built
by insertions: at any stage of any run at which a table is bound whose fields come from the schema,
the binding has the index of the schema's table that has the name in some spelling, which `TABIDX`
gives; look-ups give the fields of that table, or those marked as keys, and emitters render them. If
there is no such table the index is 0, and exactly then look-ups fail. -/
theorem bound_table_coherent (b : Backend) (hregistry : e.registry = b.registry) (ts : List Table)
    (hschema : e.schema = (Schema.ofTables ts).provider) (q : Request) (source : Source)
    (now : Moment) (sink : Sink) (g : Stage) (hgoes : Goes e (e.start q source now sink) g)
    (bound : Binding) (hbound : g.run.context.table = some bound) (hfields : bound.fields = none) :
    (∀ t ∈ (Schema.ofTables ts).tables, SameName t.name bound.table →
      bound.index = t.index ∧
      (∀ keysOnly, (e.tableFields keysOnly g.run).1 = .ok (some (t.lookedUp keysOnly))) ∧
      ∀ (sub : Sub) (m : Emitter) (ps : List String), Renders e sub g.run m ps
        (m.value g.run.context ps (m.selection.keep (t.lookedUp (m.selection == .keys))))) ∧
    ((∀ t ∈ (Schema.ofTables ts).tables, ¬ SameName t.name bound.table) →
      bound.index = 0 ∧ ∀ keysOnly, (e.tableFields keysOnly g.run).1 = .ok none) ∧
    e.registry.find? "TABIDX" = some Shared.tableIndex ∧
    ∀ (sub : Sub) (ps : List String), perform e sub (Shared.tableIndex.resolve ps) g.run =
      (.ok (some (toString bound.index)), g.run) := by
  have hdistinct := Schema.ofTables_distinct ts
  generalize Schema.ofTables ts = s at *
  have hp : e.schema.CaseBlind := hschema ▸ s.provider_caseBlind
  have hmemo : g.run.memo.Faithful e.schema :=
    hgoes.invariant (fun _ _ hmove => hmove.faithful hp) (Memo.faithful_empty _)
  have hindex : bound.index = (s.find? bound.table).elim 0 (·.index) :=
    hgoes.coherent (Backend.coherent_rules hregistry hdistinct) hschema _ g.run.context_mem bound
      hbound
  have hlookup := tableFields_bound hschema hmemo hbound hfields
  refine ⟨fun t ht hname => ?_, fun hnone => ?_, ?_, fun sub ps => ?_⟩
  · rw [Schema.find?_eq_some hdistinct ht hname] at hindex hlookup
    exact ⟨hindex, hlookup, fun sub m ps => renders_value (hlookup _) ps⟩
  · rw [Schema.find?_eq_none hnone] at hindex hlookup
    exact ⟨hindex, hlookup⟩
  · rw [hregistry]
    cases b <;> rfl
  · refine Eq.trans (b := (.ok (some _), g.run)) rfl ?_
    simp only [hbound]

/-- Two tables, of which the second one takes the place of the first. -/
def respelledTables : List Table :=
  [{ name := "Rate", index := 1, fields := [{ column := "ID", isKey := true }] },
    { name := "RATE", index := 7, fields := [{ column := "CODE", isKey := true },
      { column := "AMT" }] }]

/-- An engine with the schema of these tables. -/
def respeller : Engine where
  registry := Backend.cobol.registry
  schema := (Schema.ofTables respelledTables).provider
  store t := .error (.templateNotFound t .notFound)
  limits := {}

/-- A template that binds the table in two spellings, and lists its columns in between. -/
def respellingSource : Source :=
  ⟨[⟨1, "&TABLE|rate|"⟩, ⟨2, "&SELCOLS|"⟩, ⟨3, "&TABLE|rAtE|"⟩], none⟩

/-- At the end of the run the table is bound in the last spelling, with the index and the fields of
the table that was inserted last. -/
theorem respeller_bound :
    let x := (respeller.rules.sessionPlan respellingSource).follow respeller (callAtDepth respeller)
    let g := after x pure [] (respeller.begin rateRequest ⟨0⟩ {})
    g.run.context.table = some { table := "rAtE", index := 7 } ∧
    g.run.sink.lines = #["CODE,", "AMT"] ∧
    (∀ t ∈ (Schema.ofTables respelledTables).tables, SameName t.name "rAtE" →
      7 = t.index ∧
      (∀ keysOnly, (respeller.tableFields keysOnly g.run).1 = .ok (some (t.lookedUp keysOnly))) ∧
      ∀ (sub : Sub) (m : Emitter) (ps : List String), Renders respeller sub g.run m ps
        (m.value g.run.context ps (m.selection.keep (t.lookedUp (m.selection == .keys))))) ∧
    ((∀ t ∈ (Schema.ofTables respelledTables).tables, ¬ SameName t.name "rAtE") →
      7 = 0 ∧ ∀ keysOnly, (respeller.tableFields keysOnly g.run).1 = .ok none) ∧
    respeller.registry.find? "TABIDX" = some Shared.tableIndex ∧
    ∀ (sub : Sub) (ps : List String), perform respeller sub (Shared.tableIndex.resolve ps) g.run =
      (.ok (some (toString 7)), g.run) := by
  intro x g
  obtain ⟨hbound, hlines⟩ : g.run.context.table = some { table := "rAtE", index := 7 } ∧
      g.run.sink.lines = #["CODE,", "AMT"] := by decide +kernel
  have hgoes : Goes respeller (respeller.start rateRequest respellingSource ⟨0⟩ {}) g := by
    have hfollow := goes_follow (e := respeller) (respeller.rules.sessionPlan respellingSource)
      pure [] (respeller.begin rateRequest ⟨0⟩ {})
    rwa [Plan.bind_done] at hfollow
  exact ⟨hbound, hlines, bound_table_coherent .cobol rfl respelledTables rfl rateRequest
    respellingSource ⟨0⟩ {} g hgoes _ hbound rfl⟩

end Engine

end Stencil
