import Stencil.Proofs.Run.Noted

/-!
# What a run opens

A run looks into its store for nothing but the sub-templates that it calls, by whatever names its
triggers come to. In a run that ends well each of them has been opened and is in the report
(`Calls.opened`), and the report names no others (`run_opened`). A store that has the same templates
under these names therefore gives the same run (`run_withStore`).
-/

namespace Stencil.Engine

variable {e : Engine} {store : TemplateStore} {g h : Stage} {r s : Run} {report : Report}
  {template : String}

/-- The engine with other templates. -/
def withStore (e : Engine) (store : TemplateStore) : Engine := { e with store }

/-- At the stage `g` a sub-template is called. -/
def Calls (template : String) (g : Stage) : Prop :=
  ∃ isMain setup rest, g.plan = .call template isMain setup rest

/-- In a run that ends well, what is called is opened, and the report has its name. -/
theorem Calls.opened (hcalls : Calls template g) (hgoes : Goes e g h)
    (hdone : h.outcome = some (.ok report)) :
    template ∈ report.subTemplateNames ∧ ∃ source, e.store template = .ok source := by
  obtain ⟨isMain, setup, rest, hplan⟩ := hcalls
  rcases Relation.ReflTransGen.cases_head hgoes with rfl | ⟨g', hnext, hrest⟩
  · rw [Stage.outcome, hplan] at hdone
    cases hdone
  · cases next_eq_some_iff.1 hnext with
    | failed => exact absurd hdone (Goes.not_ok_of_fail hrest)
    | called _ hsource =>
      cases hplan
      refine ⟨?_, _, hsource⟩
      rw [eq_report_of_outcome hdone]
      exact (Goes.extends hrest).opened (Report.mem_noteTemplate.2 (.inr rfl))
    | returned | aborted | looked | acted | answered => cases hplan

/-! ## Names in reports -/

/-- No instruction notes a sub-template. -/
theorem apply_subTemplateNames {i : Instruction} (hi : i.apply r = .ok s) :
    s.report.subTemplateNames = r.report.subTemplateNames := by
  cases i with
  | noteUnknown t =>
    cases hi
    show (r.report.noteUnknown _).subTemplateNames = _
    rw [Report.noteUnknown]
    split <;> rfl
  | beginLine | beginPass | showToken | hideToken | change | noteRunaway =>
    cases hi
    rfl
  | write =>
    obtain ⟨sink, -, rfl⟩ := Instruction.apply_write hi
    rfl
  | flush =>
    obtain ⟨sink, -, rfl⟩ := Instruction.apply_flush hi
    rfl

/-- The sub-templates in the report are in the store. -/
def Found (e : Engine) (r : Run) : Prop :=
  ∀ template ∈ r.report.subTemplateNames, ∃ source, e.store template = .ok source

theorem Move.found (hmove : Move e r s) (hr : Found e r) : Found e s := by
  intro template hmem
  cases hmove with
  | rest | answered | fallback | leave => exact hr template hmem
  | act i hi => exact hr template (apply_subTemplateNames hi ▸ hmem)
  | enter name isMain setup _ hfound =>
    rcases Report.mem_noteTemplate.1 hmem with hmem | rfl
    · exact hr template hmem
    · exact ⟨_, hfound⟩

/-! ## Runs with another store -/

/-- A stage that calls nothing is followed by the same stage whatever the store, and one that calls
something where the store has the same. -/
theorem next_withStore (hsame : ∀ template, Calls template g → store template = e.store template) :
    (e.withStore store).next g = e.next g := by
  obtain ⟨r, p, ws⟩ := g
  cases p with
  | done | fail => cases ws <;> rfl
  | look | act | fields => rfl
  | call template isMain setup rest =>
    have hstore : (e.withStore store).store template = e.store template :=
      hsame template ⟨isMain, setup, rest, rfl⟩
    simp only [next, hstore]
    rfl

/-- The stages of a run that ends well follow each other with any store that has the same for the
names in the report. -/
theorem Goes.withStore (hgoes : Goes e g h) (hdone : h.outcome = some (.ok report))
    (hsame : ∀ template ∈ report.subTemplateNames, store template = e.store template) :
    Goes (e.withStore store) g h := by
  induction hgoes using Relation.ReflTransGen.head_induction_on with
  | refl => exact .refl
  | head hnext hrest ih =>
    refine .trans (.ofNext ?_) ih
    rw [next_withStore fun template hcalls => ?_, hnext]
    exact hsame template (hcalls.opened (.trans (.ofNext hnext) hrest) hdone).1

variable {q : Request} {source : Source} {now : Moment} {sink after : Sink}

/-- The sub-templates that a run reports were opened. -/
theorem run_opened (hrun : e.run q source now sink = (.ok report, after))
    (hmem : template ∈ report.subTemplateNames) : ∃ source, e.store template = .ok source := by
  obtain ⟨g, hgoes, hdone, -⟩ := goes_last e q source now sink
  rw [hrun] at hdone
  have hfound : Found e g.run :=
    hgoes.invariant (fun _ _ hmove hr => hmove.found hr) (fun _ hnone => nomatch hnone)
  rw [eq_report_of_outcome hdone] at hmem
  exact hfound template hmem

/-- What a run calls at any stage is in its report. -/
theorem run_calls (hrun : e.run q source now sink = (.ok report, after))
    (hg : Goes e (e.start q source now sink) g) (hcalls : Calls template g) :
    template ∈ report.subTemplateNames := by
  obtain ⟨h, hgoes, hdone, -⟩ := goes_last e q source now sink
  rw [hrun] at hdone
  exact (hcalls.opened (hg.to_last hgoes (next_eq_none_iff.2 ⟨_, hdone⟩)) hdone).1

/-- **A run depends on the templates that it reports.** With any store that has the same for them it
ends with the same report, and has written the same. -/
theorem run_withStore (hrun : e.run q source now sink = (.ok report, after))
    (hsame : ∀ template ∈ report.subTemplateNames, store template = e.store template) :
    (e.withStore store).run q source now sink = (.ok report, after) := by
  obtain ⟨g, hgoes, hdone, hsink⟩ := goes_last e q source now sink
  obtain ⟨g', hgoes', hdone', hsink'⟩ := goes_last (e.withStore store) q source now sink
  rw [hrun] at hdone hsink
  -- both runs start at the same stage, and the stages of the first are stages of the second
  have hthere : Goes (e.withStore store) ((e.withStore store).start q source now sink) g :=
    hgoes.withStore hdone hsame
  obtain rfl : g' = g :=
    (hthere.to_last hgoes' (next_eq_none_iff.2 ⟨_, hdone'⟩)).eq_of_last
      (next_eq_none_iff.2 ⟨_, hdone⟩)
  exact Prod.ext (Option.some.inj (hdone'.symm.trans hdone)) (hsink'.symm.trans hsink)

end Stencil.Engine
