import Stencil.Proofs.Run.FixedPoint
import Stencil.Proofs.Run.Flushed
import Stencil.Proofs.Run.History
import Stencil.Proofs.Text.Utf8

/-!
# Lines are single

Values of triggers may hold line feeds, but they are cut there before they are written, and triggers
that write by themselves are not shipped. So no line that a sink is asked to take holds a line feed,
as long as no line that is read does: the plan of a template has no other lines
(`Rules.single_source`), and what is asked for at any stage is in a plan (`Asks.single`). What a
sink has taken is what it was asked for, and the report has counted it (`run_lines`).
-/

namespace Stencil

/-- No line holds a line feed. -/
def Source.Single (s : Source) : Prop := ∀ l ∈ s.lines, '\n' ∉ l.text.toList

theorem Source.ofBytes_single (bs : Text.Bytes) : (ofBytes bs).Single := by
  intro l hl
  have htext : l.text ∈
      (Line.numbered 1 ((breakLines 10 13 bs).map Text.decodeLossy)).map (·.text) :=
    List.mem_map_of_mem hl
  rw [Line.map_text_numbered] at htext
  obtain ⟨line, hline, heq⟩ := List.mem_map.1 htext
  rw [← heq]
  exact Text.decodeLossy_not_lf (not_mem_of_mem_breakLines hline)

/-! ## Plans -/

/-- If the instruction writes a line, this holds no line feed. -/
def Instruction.Single : Instruction → Prop
  | write line => '\n' ∉ line.toList
  | _ => True

namespace Plan

variable {α β : Type}

/-- No line in the plan holds a line feed. -/
def Single : Plan α → Prop
  | done _ => True
  | fail _ => True
  | look k => ∀ v, (k v).Single
  | act i p => i.Single ∧ p.Single
  | fields _ k => ∀ fs, (k fs).Single
  | call _ _ _ p => p.Single

theorem Single.bind {p : Plan α} {f : α → Plan β} (hp : p.Single) (hf : ∀ v, (f v).Single) :
    (p >>= f).Single := by
  show (p.bind f).Single
  induction p with
  | done v => exact hf v
  | fail err => trivial
  | look k ih | fields b k ih => exact fun v => ih v (hp v)
  | act i p ih => exact ⟨hp.1, ih hp.2⟩
  | call t m s p ih => exact ih hp

end Plan

/-- Triggers that write nothing themselves. -/
theorem Action.Quiet.single_plan {α : Type} {a : Action α} (ha : a.Quiet) : a.plan.Single := by
  induction a with
  | done | fail => trivial
  | context k ih | ancestry k ih | live k ih | limits k ih | report k ih | tables k ih =>
    exact fun v => ih _ (ha _)
  | fields b k ih => exact fun fs => ih fs (ha fs)
  | change c k ih => exact ⟨trivial, ih ha⟩
  | write | call => exact ha.elim

/-- No plan of a trigger has a line with a line feed. -/
def Trigger.Single (t : Trigger) : Prop := ∀ ps, (t.resolve ps).plan.Single

theorem Shared.single_subTemplate : subTemplate.Single := by
  intro ps
  simp only [subTemplate]
  cases param ps 0 <;> trivial

/-- Having sub-templates processed one after the other writes nothing by itself. -/
theorem Shared.single_eachTable : eachTable.Single := by
  have hcalls (template : String) (ts : List (String × Nat)) :
      ((Action.forEach ts fun t => Action.callTemplate template false
        [.bind { table := t.1, index := t.2 }]).bind fun _ => .done none : Action (Option String)
      ).plan.Single := by
    induction ts with
    | nil => trivial
    | cons t ts ih => exact ih
  intro ps
  simp only [eachTable]
  cases param ps 0 with
  | none => trivial
  | some template => exact fun v => hcalls template (tablesFrom v.tables (param ps 1))

/-- The two shared triggers that replace their line are the ones for sub-templates. -/
theorem Shared.eq_of_replacesLine :
    ∀ t ∈ triggers, t.replacesLine = true → t = subTemplate ∨ t = eachTable := by
  have hkept {t : Trigger} (hkeeps : t.replacesLine = false) (hreplaces : t.replacesLine = true) :
      t = subTemplate ∨ t = eachTable :=
    absurd (hkeeps.symm.trans hreplaces) Bool.false_ne_true
  simp only [triggers, List.forall_mem_cons]
  exact ⟨hkept rfl, hkept rfl, fun _ => .inl trivial, fun _ => .inr trivial, hkept rfl, hkept rfl,
    hkept rfl, hkept rfl, hkept rfl, hkept rfl, hkept rfl, hkept rfl, hkept rfl, hkept rfl,
    hkept rfl, hkept rfl, hkept rfl, hkept rfl, List.forall_mem_nil _⟩

/-- Rules whose triggers have no line with a line feed. -/
def Rules.Single (u : Rules) : Prop := ∀ name t, u.find? name = some t → t.Single

/-- The triggers of a backend are quiet, or have sub-templates processed. -/
theorem Backend.single_rules {b : Backend} {e : Engine} (h : e.registry = b.registry) :
    e.rules.Single := by
  intro name t hfind
  have hfound : b.registry.find? name = some t := by rwa [← h]
  cases hreplaces : t.replacesLine with
  | false => exact fun ps => (b.registry_quiet name t hfound hreplaces ps).single_plan
  | true =>
    rcases mem_of_find? hfound with hshared | hcobol | hjava
    · rcases Shared.eq_of_replacesLine t hshared hreplaces with rfl | rfl
      · exact Shared.single_subTemplate
      · exact Shared.single_eachTable
    · exact fun ps => (Cobol.quiet_triggers t hcobol ps).single_plan
    · exact fun ps => (Java.quiet_triggers t hjava ps).single_plan

/-! ## The plan of a template -/

namespace Rules

open Engine (Settled valueLines)
open Plan (Single)

variable {u : Rules}

theorem single_token (column : Nat) (t : Token) {trigger : Trigger} (h : trigger.Single) :
    (tokenPlan column t trigger).Single :=
  have hvalue := h (t.paramsUpTo trigger.maxParams)
  ⟨trivial, hvalue.bind fun _ => ⟨trivial, trivial⟩⟩

theorem single_pieces (h : u.Single) (column : Nat) (ps : List Piece) :
    (u.piecesPlan column ps).Single := by
  induction ps generalizing column with
  | nil => trivial
  | cons p ps ih =>
    cases p with
    | plain c => exact (ih _).bind fun _ => trivial
    | token t =>
      rw [piecesPlan]
      split
      · exact ⟨trivial, (ih _).bind fun _ => trivial⟩
      · next trigger hfind =>
        refine (single_token column t (h t.name trigger hfind)).bind fun value => ?_
        split
        · trivial
        · exact (ih _).bind fun _ => trivial

theorem single_settle (h : u.Single) (left : Nat) (text : List Char) (resolvedAny : Bool) :
    (u.settlePlan left text resolvedAny).Single := by
  induction left generalizing text resolvedAny with
  | zero => trivial
  | succ left ih =>
    have hpass : (u.passPlan text).Single := ⟨trivial, single_pieces h 0 _⟩
    refine hpass.bind fun o => ?_
    split
    · trivial
    · trivial
    · split
      · trivial
      · split
        · split
          · exact ⟨trivial, trivial⟩
          · trivial
        · exact ih _ _

/-- Values are cut at their line feeds, -/
theorem single_values (text : List Char) : (writePlan (valueLines text)).Single := by
  have hlines : ∀ l ∈ valueLines text, '\n' ∉ l.toList := by
    intro l hl
    obtain ⟨part, hpart, rfl⟩ := List.mem_map.1 hl
    rw [String.toList_ofList]
    exact not_mem_dropLastIf (not_mem_of_mem_splitOn hpart)
  generalize valueLines text = lines at hlines
  induction lines with
  | nil => trivial
  | cons l ls ih =>
    exact ⟨hlines l List.mem_cons_self, ih fun k hk => hlines k (List.mem_cons_of_mem l hk)⟩

/-- whether they replace a line or stand in one, -/
theorem single_emit (o : Settled) : (emitPlan o).Single := by
  unfold emitPlan
  split
  · trivial
  · split
    · trivial
    · exact single_values _
  · split
    · trivial
    · exact single_values _

theorem single_lines (h : u.Single) {ls : List Line} (hls : ∀ l ∈ ls, '\n' ∉ l.text.toList) :
    (u.linesPlan ls).Single := by
  induction ls with
  | nil => trivial
  | cons l ls ih =>
    have hline : (u.linePlan l).Single := by
      unfold linePlan
      split
      · exact (single_settle h _ _ _).bind single_emit
      · exact ⟨hls l List.mem_cons_self, trivial⟩
    have hrest := ih fun k hk => hls k (List.mem_cons_of_mem l hk)
    exact ⟨trivial, hline.bind fun _ => hrest⟩

/-- and lines without macros are written as they were read. -/
theorem single_source (h : u.Single) {s : Source} (hs : s.Single) : (u.sourcePlan s).Single := by
  refine (single_lines h hs).bind fun _ => ?_
  split <;> trivial

end Rules

/-! ## What the sink is asked for -/

namespace Engine

variable {e : Engine} {g h : Stage} {gs : List Stage} {ds : List Demand}

theorem lasts_single (e : Engine) : Plan.Lasts e Plan.Single where
  fail _ := trivial
  look h r := h (e.sight r)
  act h := h.2
  fields h fs := h fs
  call h := h

/-- The templates of a store have no line with a line feed. -/
def SingleStore (e : Engine) : Prop :=
  ∀ template source, e.store template = .ok source → source.Single

theorem Stage.demands_single {line : String} (hg : g.plan.Single) (hmem : .write line ∈ g.demands) :
    '\n' ∉ line.toList := by
  obtain ⟨r, p, ws⟩ := g
  cases p with
  | act i p =>
    cases i with
    | write l =>
      cases List.mem_singleton.1 hmem
      exact hg.1
    | flush => cases List.mem_singleton.1 hmem
    | beginLine | beginPass | noteUnknown | noteRunaway | showToken | hideToken | change =>
      cases hmem
  | done | fail | look | fields | call => cases hmem

/-- No line that the sink is asked to take holds a line feed. -/
theorem Asks.single (hrules : e.rules.Single) (hstore : e.SingleStore) (hasks : Asks e g ds h)
    (hg : g.Leaves Plan.Single) {line : String} (hmem : .write line ∈ ds) :
    '\n' ∉ line.toList := by
  obtain ⟨gs, htrail, rfl⟩ := hasks.trail
  obtain ⟨k, hk, hmem⟩ := List.mem_flatMap.1 hmem
  have hleaves := htrail.leaves (lasts_single e)
    (fun t source hfound => Rules.single_source hrules (hstore t source hfound)) hg k hk
  exact Stage.demands_single hleaves.plan hmem

/-- A line that is written at a stage is asked for there. -/
theorem demanded_of_event {line : String} (hev : e.event? g = some (.wrote line)) :
    .write line ∈ g.demands := by
  obtain ⟨r, p, ws⟩ := g
  cases p with
  | act i p =>
    simp only [event?] at hev
    split at hev
    · cases i with
      | write l =>
        cases hev
        exact List.mem_singleton_self _
      | beginLine | beginPass | noteUnknown | noteRunaway | showToken | hideToken | change
      | flush => cases hev
    · cases hev
  | done | fail => cases ws <;> cases hev
  | look => cases hev
  | fields =>
    simp only [event?] at hev
    split at hev <;> cases hev
  | call =>
    simp only [event?] at hev
    split at hev
    · cases hev
    · split at hev <;> cases hev

theorem demanded_of_history {line : String} (hmem : .wrote line ∈ e.history gs) :
    .write line ∈ gs.flatMap Stage.demands := by
  obtain ⟨k, hk, hev⟩ := List.mem_filterMap.1 hmem
  exact List.mem_flatMap.2 ⟨k, hk, demanded_of_event hev⟩

/-! ## Whole runs -/

variable {q : Request} {source : Source} {now : Moment} {sink after : Sink} {report : Report}

theorem start_single (hrules : e.rules.Single) (hsource : source.Single) :
    (e.start q source now sink).Leaves Plan.Single := by
  refine ⟨(Rules.single_source hrules hsource).bind fun _ v => ?_, List.forall_mem_nil _⟩
  show (if v.context.isMain then Plan.perform .flush else pure () : Plan Unit).Single
  split
  · exact ⟨trivial, trivial⟩
  · trivial

/-- A run that ends well has counted the lines that its sink has taken, and none of them holds a
line feed. -/
theorem run_lines (hrules : e.rules.Single) (hstore : e.SingleStore) (hsource : source.Single)
    (hrun : e.run q source now {} = (.ok report, after)) :
    after.lines.size = report.linesWritten ∧ ∀ l ∈ after.lines.toList, '\n' ∉ l.toList := by
  obtain ⟨g, hgoes, houtcome, hsink⟩ := goes_last e q source now {}
  obtain ⟨gs, htrail⟩ := hgoes.trail
  obtain ⟨hreport, hlines⟩ := htrail.report rfl
  have hlines : g.run.sink.lines.toList = (e.history gs).filterMap Event.line? :=
    hlines.trans (List.nil_append _)
  rw [hrun] at houtcome hsink
  rw [hsink] at hlines
  refine ⟨?_, fun l hl => ?_⟩
  · rw [eq_report_of_outcome houtcome, hreport, ← Array.length_toList, hlines]
    rfl
  · rw [hlines, Event.mem_line] at hl
    exact htrail.asks.single hrules hstore (start_single hrules hsource) (demanded_of_history hl)

end Engine

end Stencil
