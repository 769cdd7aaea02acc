import Stencil.Proofs.Run.Reported
import Stencil.Proofs.Run.Settle

/-!
# What is noted of unknown tokens

A pass notes the tokens that have no trigger, and an entry stays to the end of the run
(`Goes.extends`). The tokens with which a line is left are thus all noted, provided that a pass was
made over its final text. That is so however the passes end, but for one: when the last pass that
is allowed resolves a token, nothing looks at what it put in. What it put in may be a macro, and the
report is clean all the same.
-/

namespace Stencil

/-- The run has an entry for an unknown token. -/
def Run.Notes (u : Unresolved) (r : Run) : Prop := u ∈ r.report.unknownTriggers

namespace Engine

variable {e : Engine} {sub : Sub} {room : Nat} {r s : Run} {u : Unresolved} {g h : Stage}

/-- An entry stays. -/
theorem Reaches.notes {scope : Scope} (h : Reaches e room scope r s) (hr : r.Notes u) :
    s.Notes u := h.extends.unknown hr

/-! ## Passes note what they keep -/

/-- One of the pieces is a token whose trigger replaces the line. -/
def Replacing (e : Engine) (ps : List Piece) : Prop :=
  ∃ t ∈ ps.filterMap Piece.token?, ∃ trigger, e.registry.find? t.name = some trigger ∧
    trigger.replacesLine = true

theorem Replacing.cons {p : Piece} {ps : List Piece} (h : Replacing e ps) :
    Replacing e (p :: ps) := by
  obtain ⟨t, ht, hreplaces⟩ := h
  refine ⟨t, ?_, hreplaces⟩
  obtain ⟨q, hq, heq⟩ := List.mem_filterMap.1 ht
  exact List.mem_filterMap.2 ⟨q, List.mem_cons_of_mem p hq, heq⟩

/-- When the pieces of a text have been resolved, a token without a trigger is noted, unless a token
before it has replaced the line. -/
theorem resolvePieces_notes_before (hsub : SubDoes e room sub) {column : Nat}
    {left right : List Piece} {t : Token} {o : Outcome}
    (hdone : resolvePieces e sub column (left ++ .token t :: right) r = (.ok o, s))
    (hunknown : e.registry.contains t.name = false) :
    s.Notes (r.unresolved t.source) ∨ (∃ v, o = .replaced v) ∧ Replacing e left := by
  induction left generalizing column o r s with
  | nil =>
    have hfind : e.registry.find? t.name = none := by
      simpa [Registry.contains] using hunknown
    simp only [List.nil_append, resolvePieces, hfind, Effect.modify_bind] at hdone
    obtain ⟨o', s', hrest, hkept⟩ := Effect.bind_eq_ok_iff.1 hdone
    obtain ⟨-, rfl⟩ := Effect.pure_eq_ok_iff.1 hkept
    -- noted now, and the entry stays while the other pieces are resolved
    have hreaches := (resolvePieces_alike kept_true hsub.alike
      (advance column t.source) right).does (r.mapReport (·.noteUnknown (r.unresolved t.source)))
    rw [hrest] at hreaches
    exact .inl (hreaches.notes (Report.mem_noteUnknown.2 (.inr rfl)))
  | cons p left ih =>
    cases p with
    | plain c =>
      obtain ⟨o', s', hrest, hkept⟩ := Effect.bind_eq_ok_iff.1 hdone
      obtain ⟨rfl, rfl⟩ := Effect.pure_eq_ok_iff.1 hkept
      rcases ih hrest with hnoted | ⟨⟨v, rfl⟩, hreplacing⟩
      · exact .inl hnoted
      · exact .inr ⟨⟨v, rfl⟩, hreplacing.cons⟩
    | token w =>
      cases hfind : e.registry.find? w.name with
      | none =>
        simp only [List.cons_append, resolvePieces, hfind, Effect.modify_bind] at hdone
        obtain ⟨o', s', hrest, hkept⟩ := Effect.bind_eq_ok_iff.1 hdone
        obtain ⟨rfl, rfl⟩ := Effect.pure_eq_ok_iff.1 hkept
        rcases ih hrest with hnoted | ⟨⟨v, rfl⟩, hreplacing⟩
        · exact .inl hnoted
        · exact .inr ⟨⟨v, rfl⟩, hreplacing.cons⟩
      | some trigger =>
        simp only [List.cons_append, resolvePieces, hfind] at hdone
        obtain ⟨value, r', htoken, hdone⟩ := Effect.bind_eq_ok_iff.1 hdone
        have hframe := ((resolveToken_alike kept_true hsub.alike column w trigger).does r).frame
        rw [htoken] at hframe
        split at hdone
        · next hreplaces =>
          obtain ⟨rfl, rfl⟩ := Effect.pure_eq_ok_iff.1 hdone
          exact .inr ⟨⟨value, rfl⟩, w, List.mem_cons_self, trigger, hfind, hreplaces⟩
        · obtain ⟨o', s', hrest, hresolved⟩ := Effect.bind_eq_ok_iff.1 hdone
          obtain ⟨rfl, rfl⟩ := Effect.pure_eq_ok_iff.1 hresolved
          rw [← hframe.unresolved]
          rcases ih hrest with hnoted | ⟨⟨v, rfl⟩, hreplacing⟩
          · exact .inl hnoted
          · exact .inr ⟨⟨v, rfl⟩, hreplacing.cons⟩

/-- In a text that is rewritten to its end, all tokens without a trigger are noted. -/
theorem resolvePieces_notes (hsub : SubDoes e room sub) {column n : Nat} {ps : List Piece}
    {mid : List Char} {t : Token}
    (hdone : resolvePieces e sub column ps r = (.ok (.rewritten mid n), s))
    (ht : t ∈ ps.filterMap Piece.token?) (hunknown : e.registry.contains t.name = false) :
    s.Notes (r.unresolved t.source) := by
  obtain ⟨p, hp, heq⟩ := List.mem_filterMap.1 ht
  cases p with
  | plain c => cases heq
  | token w =>
    cases heq
    obtain ⟨left, right, rfl⟩ := List.append_of_mem hp
    rcases resolvePieces_notes_before hsub hdone hunknown with hnoted | ⟨⟨v, hreplaced⟩, -⟩
    · exact hnoted
    · cases hreplaced

/-- A pass notes the tokens without a trigger. -/
theorem pass_notes (hsub : SubDoes e room sub) {n : Nat} {text mid : List Char} {t : Token}
    (hpass : pass e sub text r = (.ok (.rewritten mid n), s))
    (ht : t ∈ tokenize (String.ofList text)) (hunknown : e.registry.contains t.name = false) :
    s.Notes (r.unresolved t.source) := by
  rw [tokenize, String.toList_ofList] at ht
  rw [pass, Effect.modify_bind] at hpass
  have hnoted := resolvePieces_notes hsub hpass ht hunknown
  exact hnoted

/-- As many passes were made over a text as were allowed, and each of them resolved a token. -/
def UsesUp (e : Engine) (sub : Sub) (allowed : Nat) (text : List Char) (r : Run)
    (final : List Char) : Prop :=
  ∃ counts s, Passes e sub text r counts final s ∧ counts.length = allowed ∧ ∀ n ∈ counts, 0 < n

/-- The tokens of the final text are noted, unless the passes were used up. -/
theorem settle_notes (hkeep : e.limits.unknown = .keep) (hsub : SubDoes e room sub) {left : Nat}
    {text final : List Char} {before after : Bool}
    (hsettle : settle e sub (left + 1) text before r = (.ok (.text final after), s)) :
    (∀ t ∈ tokenize (String.ofList final), s.Notes (r.unresolved t.source)) ∨
      UsesUp e sub (left + 1) text r final := by
  induction left using Nat.strongRecOn generalizing text before r with
  | ind left ih =>
    obtain ⟨mid, n, s', hpass, ⟨rfl, rfl, rfl, rfl⟩ | ⟨hn, hmid, rfl, rfl, rfl⟩ |
      ⟨hn, rfl, rfl, rfl, rfl⟩ | ⟨hn, hleft, hrest⟩⟩ := settle_succ_eq_text hsettle
    · -- the last pass resolved nothing, so it looked at the final text
      obtain ⟨rfl, hnone⟩ := pass_none_keep hkeep hpass
      exact .inl fun t ht => pass_notes hsub hpass ht (hnone t ht)
    · refine .inl fun t ht => ?_
      rw [tokenize, String.toList_ofList, pieces, if_neg (by simp [hmid]), filterMap_plain] at ht
      cases ht
    · exact .inr ⟨[n], s', .cons hpass .nil, rfl, by simpa using hn⟩
    · obtain ⟨left, rfl⟩ : ∃ left', left = left' + 1 := ⟨left - 1, by omega⟩
      rcases ih left (by omega) hrest with hnoted | ⟨counts, s'', hpasses, hlength, hall⟩
      · refine .inl fun t ht => ?_
        rw [← pass_unresolved hsub hpass]
        exact hnoted t ht
      · exact .inr ⟨n :: counts, s'', .cons hpass hpasses, by simp [hlength], by simpa [hn] using hall⟩

/-! ## Lines of a run -/

/-- At the stage `g` the line `l` of a template is begun. -/
def Begins (e : Engine) (l : Line) (g : Stage) : Prop :=
  ∃ rest, g.plan = .act (.beginLine l.number) (e.rules.linePlan l >>= rest)

/-- Each line of a template is begun. -/
theorem linesPlan_begins (l : Line) (ls : List Line) (f : Unit → Plan Unit) (r : Run)
    (ws : List Waiting) : Begins e l ⟨r, e.rules.linesPlan (l :: ls) >>= f, ws⟩ := by
  refine ⟨fun _ => e.rules.linesPlan ls >>= f, ?_⟩
  rw [Rules.linesPlan, Plan.bind_bind]
  show Plan.act _ ((e.rules.linePlan l >>= _) >>= f) = _
  rw [Plan.bind_bind]

/-- The first line of a template is begun when the template is. -/
theorem sourcePlan_begins (l : Line) (ls : List Line) (failure : Option IoError)
    (f : Unit → Plan Unit) (r : Run) (ws : List Waiting) :
    Begins e l ⟨r, e.rules.sourcePlan ⟨l :: ls, failure⟩ >>= f, ws⟩ := by
  rw [Rules.sourcePlan, Plan.bind_bind]
  exact linesPlan_begins l ls _ r ws

/-- A failure goes up to the first caller. -/
theorem goes_fail (err : Error) (ws : List Waiting) (r : Run) :
    ∃ s, Goes e ⟨r, .fail err, ws⟩ ⟨s, .fail err, []⟩ := by
  induction ws generalizing r with
  | nil => exact ⟨r, .refl⟩
  | cons w ws ih =>
    obtain ⟨s, hs⟩ := ih (leave w.caller w.child r)
    exact ⟨s, .trans (.ofAdvance .aborted) hs⟩

/-- The report of a run that has ended well is that of its last stage. -/
theorem eq_report_of_outcome {report : Report} (hdone : g.outcome = some (.ok report)) :
    report = g.run.report := by
  unfold Stage.outcome at hdone
  split at hdone
  · cases hdone
    rfl
  · cases hdone
  · cases hdone

/-- No plan that failed leads to a good end. -/
theorem Goes.not_ok_of_fail {err : Error} {ws : List Waiting} {report : Report}
    (hgoes : Goes e ⟨r, .fail err, ws⟩ h) : h.outcome ≠ some (.ok report) := by
  intro hdone
  obtain ⟨s, hs⟩ := goes_fail (e := e) err ws r
  have hlast := hgoes.to_last hs rfl
  have heq := hlast.eq_of_last (next_eq_none_iff.2 ⟨_, hdone⟩)
  rw [← heq] at hdone
  cases hdone

/-- In a run that ends well, a line that is begun at a live stage is processed, and what is noted
of it is in the report. -/
theorem Begins.processed {l : Line} {report : Report} (hbegins : Begins e l g)
    (hh : Goes e g h) (hdone : h.outcome = some (.ok report)) :
    ∃ s, processLine e (callAtDepth e) l (beginLine l.number g.run) = (.ok (), s) ∧
      s.report.Extends report := by
  obtain ⟨rest, hplan⟩ := hbegins
  obtain ⟨r, p, ws⟩ := g
  cases hplan
  have hnext : e.next ⟨r, .act (.beginLine l.number) (e.rules.linePlan l >>= rest), ws⟩ =
      some ⟨beginLine l.number r, e.rules.linePlan l >>= rest, ws⟩ := rfl
  have hline := goes_follow (e := e) (e.rules.linePlan l) rest ws (beginLine l.number r)
  have hgoes := Goes.to_last (.trans (.ofNext hnext) hline) hh (next_eq_none_iff.2 ⟨_, hdone⟩)
  rw [follow_linePlan] at hgoes
  rcases hx : processLine e (callAtDepth e) l (beginLine l.number r) with ⟨err | _, s⟩
  · rw [after_error hx] at hgoes
    exact absurd hdone hgoes.not_ok_of_fail
  · rw [after_ok hx] at hgoes
    refine ⟨s, rfl, ?_⟩
    rw [eq_report_of_outcome hdone]
    exact hgoes.extends

/-- **The macros left in the output are noted.** Take any line with macros of a run that ends well
under the policy that keeps unknown tokens. Unless a line-replacing trigger ends it, the line ends
with a final text, and each token of that text has an entry in the report, so that there is none
when the report is clean; or the passes over the line were used up, the last one resolving a token
like all others. -/
theorem line_tokens_noted (e : Engine) (q : Request) (source : Source) (now : Moment)
    (sink : Sink) (hkeep : e.limits.unknown = .keep) (g : Stage)
    (hg : Goes e (e.start q source now sink) g) (l : Line) (hbegins : Begins e l g)
    (hcarries : carriesMacros l.text.toList = true)
    (hlast : ∀ v t, settle e (call e (e.limits.maxDepth - g.run.context.depth)) e.limits.passes
      l.text.toList false (beginLine l.number g.run) ≠ (.ok (.replaced v), t))
    (h : Stage) (hh : Goes e g h) (report : Report) (hdone : h.outcome = some (.ok report)) :
    ∃ final resolvedAny t,
      settle e (call e (e.limits.maxDepth - g.run.context.depth)) e.limits.passes l.text.toList
        false (beginLine l.number g.run) = (.ok (.text final resolvedAny), t) ∧
      ((∀ u ∈ tokenize (String.ofList final),
          ⟨g.run.context.template, l.number, String.ofList u.source⟩ ∈ report.unknownTriggers) ∧
        (report.isClean = true → tokenize (String.ofList final) = []) ∨
      UsesUp e (call e (e.limits.maxDepth - g.run.context.depth)) (max 1 e.limits.maxIterations)
        l.text.toList (beginLine l.number g.run) final) := by
  have hlive := hg.live (start_live e q source now sink)
  have hdepth : (beginLine l.number g.run).context.depth = g.run.context.depth :=
    (beginLine_frame l.number g.run).sameCall.depth
  have hhere : Reaches e 0 .template g.run g.run := .refl
  have hline : (beginLine l.number g.run).context.line = l.number :=
    hhere.beginLine_line hlive.current l.number
  have htemplate : (beginLine l.number g.run).context.template = g.run.context.template :=
    (beginLine_frame l.number g.run).sameCall.template
  obtain ⟨s, hprocess, hnotes⟩ := hbegins.processed hh hdone
  rw [← (processLine_alike (kept_depth _) (callAtDepth_alike e _) l).same _ hdepth, processLine,
    if_pos hcarries] at hprocess
  obtain ⟨o, t, hsettle, hemit⟩ := Effect.bind_eq_ok_iff.1 hprocess
  cases o with
  | replaced v => exact absurd hsettle (hlast v t)
  | text final resolvedAny =>
    refine ⟨final, resolvedAny, t, hsettle, ?_⟩
    obtain ⟨left, hleft⟩ : ∃ left, e.limits.passes = left + 1 :=
      ⟨e.limits.passes - 1, by unfold Limits.passes; omega⟩
    have hmax : max 1 e.limits.maxIterations = left + 1 := by
      rw [← hleft, Limits.passes, Nat.max_comm]
    rw [hleft] at hsettle
    rw [hmax]
    rcases settle_notes hkeep (call_does e _) hsettle with hnoted | hused
    · have hreported : ∀ u ∈ tokenize (String.ofList final),
          ⟨g.run.context.template, l.number, String.ofList u.source⟩ ∈ report.unknownTriggers := by
        intro u hu
        have hentry := hnoted u hu
        rw [Run.unresolved, hline, htemplate] at hentry
        have hwritten : Reaches e 0 .line t (emitSettled (.text final resolvedAny) t).2 :=
          emitSettled_does _ t
        rw [hemit] at hwritten
        exact hnotes.unknown (hwritten.notes hentry)
      refine .inl ⟨hreported, fun hclean => ?_⟩
      have hnone : report.unknownTriggers = [] := by
        rw [Report.isClean, Bool.and_eq_true] at hclean
        exact List.isEmpty_iff.1 hclean.1
      refine List.eq_nil_iff_forall_not_mem.2 fun u hu => ?_
      have hentry := hreported u hu
      rw [hnone] at hentry
      cases hentry
    · exact .inr hused

/-- An engine with one trigger, which stands for a macro that has none. -/
def inserting (passes : Nat) : Engine where
  registry := (Registry.empty "").register
    { name := "A", resolve := fun _ => .done (some "&B|") }
  schema := .absent
  store t := .error (.templateNotFound t .notFound)
  limits := { maxIterations := passes }

/-- A request for the template `t`. -/
def plainRequest : Request where
  template := "t"
  output := "o"
  insuranceLine := ""
  processType := ""

/-- With two passes allowed, the second one notes what the first one put in. -/
theorem inserting_noted :
    let g := (inserting 2).start plainRequest ⟨[⟨1, "&A|"⟩], none⟩ ⟨0⟩ {}
    let report : Report :=
      { linesRead := 1, linesWritten := 1, passes := 2, unknownTriggers := [⟨"t", 1, "&B|"⟩] }
    ∃ final resolvedAny t,
      settle (inserting 2) (call (inserting 2) ((inserting 2).limits.maxDepth - g.run.context.depth))
        (inserting 2).limits.passes "&A|".toList false (beginLine 1 g.run) =
          (.ok (.text final resolvedAny), t) ∧
      ((∀ u ∈ tokenize (String.ofList final),
          ⟨g.run.context.template, 1, String.ofList u.source⟩ ∈ report.unknownTriggers) ∧
        (report.isClean = true → tokenize (String.ofList final) = []) ∨
      UsesUp (inserting 2)
        (call (inserting 2) ((inserting 2).limits.maxDepth - g.run.context.depth))
        (max 1 (inserting 2).limits.maxIterations) "&A|".toList (beginLine 1 g.run) final) := by
  intro g report
  have hsettle : (settle (inserting 2)
      (call (inserting 2) ((inserting 2).limits.maxDepth - g.run.context.depth))
      (inserting 2).limits.passes "&A|".toList false (beginLine 1 g.run)).1 =
        .ok (.text "&B|".toList true) := Effect.eq_ok_of_toOption (by decide +kernel)
  have hrun : ((inserting 2).run plainRequest ⟨[⟨1, "&A|"⟩], none⟩ ⟨0⟩ {}).1 = .ok report :=
    Effect.eq_ok_of_toOption (by decide +kernel)
  obtain ⟨h, hgoes, houtcome, -⟩ :=
    goes_last (inserting 2) plainRequest ⟨[⟨1, "&A|"⟩], none⟩ ⟨0⟩ {}
  rw [hrun] at houtcome
  refine line_tokens_noted (inserting 2) plainRequest ⟨[⟨1, "&A|"⟩], none⟩ ⟨0⟩ {} rfl g .refl
    ⟨1, "&A|"⟩ ?_ (by decide) (fun v t hreplaced => ?_) h hgoes report houtcome
  · exact sourcePlan_begins ⟨1, "&A|"⟩ [] none (fun _ => Rules.finishPlan) g.run []
  · rw [hreplaced] at hsettle
    cases hsettle

/-- With one pass allowed, a macro is left in the output of which the report has no entry. -/
theorem clean_with_token :
    ((inserting 1).run plainRequest ⟨[⟨1, "&A|"⟩], none⟩ ⟨0⟩ {}).1 =
        .ok { linesRead := 1, linesWritten := 1, passes := 1 } ∧
      Report.isClean { linesRead := 1, linesWritten := 1, passes := 1 } = true ∧
      ((inserting 1).run plainRequest ⟨[⟨1, "&A|"⟩], none⟩ ⟨0⟩ {}).2.lines = #["&B|"] ∧
      tokenize "&B|" ≠ [] :=
  ⟨Effect.eq_ok_of_toOption (by decide +kernel), rfl, by decide +kernel, by decide +kernel⟩

end Engine

end Stencil
