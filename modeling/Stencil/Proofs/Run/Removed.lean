import Stencil.Emit.Shared
import Stencil.Proofs.Run.Noted

/-!
# What is left when unknown tokens are removed

Under the policy that removes unknown tokens a line ends without any token in most cases, but not
in all. A pass that resolves nothing is the last one, even when it has removed something; what it
removed may have stood in the middle of a macro, which is then complete (`Joins`). And a pass at the
limit is the last one whatever it has put in; if that is a macro without a trigger, it stays
(`UsesUp`). `line_tokens_removed` says that there is no other way.
-/

namespace Stencil

/-- A text without its tokens. -/
def withoutTokens (text : List Char) : List Char :=
  (pieces text).flatMap fun
    | .plain c => [c]
    | .token _ => []

theorem withoutTokens_of_tokenize_eq_nil {text : List Char}
    (h : tokenize (String.ofList text) = []) : withoutTokens text = text := by
  rw [tokenize, String.toList_ofList, List.filterMap_eq_nil_iff] at h
  have hpiece : ∀ p ∈ pieces text, (match p with
      | .plain c => [c]
      | .token _ => []) = p.source := by
    intro p hp
    cases p with
    | plain c => rfl
    | token t => cases h _ hp
  rw [withoutTokens, List.flatMap_def, List.map_congr_left hpiece, flatten_pieces]

namespace Engine

variable {e : Engine} {sub : Sub} {room : Nat} {r s : Run} {g h : Stage}

/-- The policy that removes unknown tokens leaves the rest of a text. -/
theorem remains_remove (hremove : e.limits.unknown = .remove) (text : List Char) :
    e.remains text = withoutTokens text := by
  have hpiece : e.leaves = fun
      | .plain c => [c]
      | .token _ => [] := by
    funext p
    cases p with
    | plain c => rfl
    | token t => simp [leaves, unknownText, hremove]
  rw [remains, hpiece, withoutTokens]

/-! ## Passes that remove -/

/-- Fewer passes were made over a text than allowed, each of which resolved a token, and one more
that resolved none: it removed the tokens of its text, at least one, and what it left is final. -/
def Joins (e : Engine) (sub : Sub) (allowed : Nat) (text : List Char) (r : Run)
    (final : List Char) : Prop :=
  ∃ counts mid s, Passes e sub text r counts mid s ∧ counts.length < allowed ∧
    (∀ n ∈ counts, 0 < n) ∧ Exhausted e mid ∧ tokenize (String.ofList mid) ≠ [] ∧
    final = withoutTokens mid

/-- The final text has no token, unless the last pass removed something or was one at the limit. -/
theorem settle_removes (hremove : e.limits.unknown = .remove) (hsub : SubDoes e room sub)
    {left : Nat} {text final : List Char} {before after : Bool}
    (hsettle : settle e sub (left + 1) text before r = (.ok (.text final after), s)) :
    tokenize (String.ofList final) = [] ∨ Joins e sub (left + 1) text r final ∨
      (UsesUp e sub (left + 1) text r final ∧
        (Exhausted e final ∨ r.unresolved final ∈ s.report.runawayLines)) := by
  induction left using Nat.strongRecOn generalizing text before r with
  | ind left ih =>
    obtain ⟨mid, n, s', hpass, ⟨rfl, rfl, rfl, rfl⟩ | ⟨hn, hmid, rfl, rfl, rfl⟩ |
      ⟨hn, rfl, rfl, rfl, rfl⟩ | ⟨hn, hleft, hrest⟩⟩ := settle_succ_eq_text hsettle
    · -- the last pass resolved nothing, but removed what there was
      obtain ⟨rfl, hnone⟩ := pass_none hpass
      rw [remains_remove hremove]
      by_cases htokens : tokenize (String.ofList text) = []
      · rw [withoutTokens_of_tokenize_eq_nil htokens]
        exact .inl htokens
      · exact .inr (.inl ⟨[], text, r, .nil, Nat.succ_pos left, nofun, hnone, htokens, rfl⟩)
    · refine .inl ?_
      rw [tokenize, String.toList_ofList, pieces, if_neg (by simp [hmid]), filterMap_plain]
    · refine .inr (.inr ⟨⟨[n], s', .cons hpass .nil, rfl, by simpa using hn⟩, ?_⟩)
      cases hres : e.resolvable mid with
      | false => exact .inl (resolvable_eq_false_iff.1 hres)
      | true =>
        refine .inr ?_
        rw [if_pos rfl, ← pass_unresolved hsub hpass]
        exact List.mem_append_right _ (List.mem_singleton_self _)
    · obtain ⟨left, rfl⟩ : ∃ left', left = left' + 1 := ⟨left - 1, by omega⟩
      rw [← pass_unresolved hsub hpass]
      rcases ih left (by omega) hrest with hnone |
        ⟨counts, joined, s'', hpasses, hlength, hall, hlast⟩ |
        ⟨⟨counts, s'', hpasses, hlength, hall⟩, hend⟩
      · exact .inl hnone
      · exact .inr (.inl ⟨n :: counts, joined, s'', .cons hpass hpasses, by simpa using hlength,
          by simpa [hn] using hall, hlast⟩)
      · exact .inr (.inr ⟨⟨n :: counts, s'', .cons hpass hpasses, by simp [hlength],
          by simpa [hn] using hall⟩, hend⟩)

/-! ## Lines of a run -/

/-- In a run that ends well, a line with macros that no line-replacing trigger ends has a final
text, and what is noted of it is in the report. -/
theorem Begins.settled {q : Request} {source : Source} {now : Moment} {sink : Sink} {l : Line}
    {report : Report} (hbegins : Begins e l g) (hg : Goes e (e.start q source now sink) g)
    (hcarries : carriesMacros l.text.toList = true)
    (hlast : ∀ v t, settle e (call e (e.limits.maxDepth - g.run.context.depth)) e.limits.passes
      l.text.toList false (beginLine l.number g.run) ≠ (.ok (.replaced v), t))
    (hh : Goes e g h) (hdone : h.outcome = some (.ok report)) :
    ∃ final resolvedAny t,
      settle e (call e (e.limits.maxDepth - g.run.context.depth)) e.limits.passes l.text.toList
        false (beginLine l.number g.run) = (.ok (.text final resolvedAny), t) ∧
      t.report.Extends report ∧
      ∀ text, (beginLine l.number g.run).unresolved text =
        ⟨g.run.context.template, l.number, String.ofList text⟩ := by
  have hdepth : (beginLine l.number g.run).context.depth = g.run.context.depth :=
    (beginLine_frame l.number g.run).sameCall.depth
  have htemplate : (beginLine l.number g.run).context.template = g.run.context.template :=
    (beginLine_frame l.number g.run).sameCall.template
  have hhere : Reaches e 0 .template g.run g.run := .refl
  have hline : (beginLine l.number g.run).context.line = l.number :=
    hhere.beginLine_line (hg.live (start_live e q source now sink)).current l.number
  obtain ⟨s, hprocess, hextends⟩ := hbegins.processed hh hdone
  rw [← (processLine_alike (kept_depth _) (callAtDepth_alike e _) l).same _ hdepth, processLine,
    if_pos hcarries] at hprocess
  obtain ⟨o, t, hsettle, hemit⟩ := Effect.bind_eq_ok_iff.1 hprocess
  cases o with
  | replaced v => exact absurd hsettle (hlast v t)
  | text final resolvedAny =>
    have hwritten : Reaches e 0 .line t (emitSettled (.text final resolvedAny) t).2 :=
      emitSettled_does _ t
    rw [hemit] at hwritten
    refine ⟨final, resolvedAny, t, hsettle, hwritten.extends.trans hextends, fun text => ?_⟩
    rw [Run.unresolved, hline, htemplate]

/-- **What is left of the macros that are removed.** Take any line with macros of a run that ends
well under the policy that removes unknown tokens, and which no line-replacing trigger ends. Its
final text has no token at all; or its last pass resolved nothing and took away unknown tokens, and
what these had kept apart may be tokens now, with a trigger or without; or its passes were used up,
and then none of the tokens left has a trigger, or the report has an entry for a runaway line. -/
theorem line_tokens_removed (e : Engine) (q : Request) (source : Source) (now : Moment)
    (sink : Sink) (hremove : e.limits.unknown = .remove) (g : Stage)
    (hg : Goes e (e.start q source now sink) g) (l : Line) (hbegins : Begins e l g)
    (hcarries : carriesMacros l.text.toList = true)
    (hlast : ∀ v t, settle e (call e (e.limits.maxDepth - g.run.context.depth)) e.limits.passes
      l.text.toList false (beginLine l.number g.run) ≠ (.ok (.replaced v), t))
    (h : Stage) (hh : Goes e g h) (report : Report) (hdone : h.outcome = some (.ok report)) :
    ∃ final resolvedAny t,
      settle e (call e (e.limits.maxDepth - g.run.context.depth)) e.limits.passes l.text.toList
        false (beginLine l.number g.run) = (.ok (.text final resolvedAny), t) ∧
      (tokenize (String.ofList final) = [] ∨
      Joins e (call e (e.limits.maxDepth - g.run.context.depth)) (max 1 e.limits.maxIterations)
        l.text.toList (beginLine l.number g.run) final ∨
      (UsesUp e (call e (e.limits.maxDepth - g.run.context.depth)) (max 1 e.limits.maxIterations)
          l.text.toList (beginLine l.number g.run) final ∧
        (Exhausted e final ∨
          ⟨g.run.context.template, l.number, String.ofList final⟩ ∈ report.runawayLines))) := by
  obtain ⟨final, resolvedAny, t, hsettle, hextends, hentry⟩ :=
    hbegins.settled hg hcarries hlast hh hdone
  refine ⟨final, resolvedAny, t, hsettle, ?_⟩
  obtain ⟨left, hleft⟩ : ∃ left, e.limits.passes = left + 1 :=
    ⟨e.limits.passes - 1, by unfold Limits.passes; omega⟩
  have hmax : max 1 e.limits.maxIterations = left + 1 := by
    rw [← hleft, Limits.passes, Nat.max_comm]
  rw [hleft] at hsettle
  rw [hmax, ← hentry]
  rcases settle_removes hremove (call_does e _) hsettle with hnone | hjoins |
    ⟨hused, hnone | hrunaway⟩
  · exact .inl hnone
  · exact .inr (.inl hjoins)
  · exact .inr (.inr ⟨hused, .inl hnone⟩)
  · exact .inr (.inr ⟨hused, .inr (hextends.runaway hrunaway)⟩)

/-- An engine with two of the shared triggers, which removes unknown tokens. -/
def removing (passes : Nat) : Engine where
  registry := (Registry.empty "").registerAll [Shared.program, Shared.upperCase]
  schema := .absent
  store t := .error (.templateNotFound t .notFound)
  limits := { maxIterations := passes, unknown := .remove }

/-- An unknown token next to one with a trigger is gone when the line is written. -/
theorem removing_tokens :
    let g := (removing 2).start plainRequest ⟨[⟨1, "&U|&PGM|."⟩], none⟩ ⟨0⟩ {}
    let sub := call (removing 2) ((removing 2).limits.maxDepth - g.run.context.depth)
    let report : Report :=
      { linesRead := 1, linesWritten := 1, passes := 1, unknownTriggers := [⟨"t", 1, "&U|"⟩] }
    ∃ final resolvedAny t,
      settle (removing 2) sub (removing 2).limits.passes "&U|&PGM|.".toList false
        (beginLine 1 g.run) = (.ok (.text final resolvedAny), t) ∧
      (tokenize (String.ofList final) = [] ∨
      Joins (removing 2) sub (max 1 (removing 2).limits.maxIterations) "&U|&PGM|.".toList
        (beginLine 1 g.run) final ∨
      (UsesUp (removing 2) sub (max 1 (removing 2).limits.maxIterations) "&U|&PGM|.".toList
          (beginLine 1 g.run) final ∧
        (Exhausted (removing 2) final ∨
          ⟨g.run.context.template, 1, String.ofList final⟩ ∈ report.runawayLines))) := by
  intro g sub report
  have hsettle : (settle (removing 2) sub (removing 2).limits.passes "&U|&PGM|.".toList false
      (beginLine 1 g.run)).1 = .ok (.text "O.".toList true) :=
    Effect.eq_ok_of_toOption (by decide +kernel)
  have hrun : ((removing 2).run plainRequest ⟨[⟨1, "&U|&PGM|."⟩], none⟩ ⟨0⟩ {}).1 = .ok report :=
    Effect.eq_ok_of_toOption (by decide +kernel)
  obtain ⟨h, hgoes, houtcome, -⟩ :=
    goes_last (removing 2) plainRequest ⟨[⟨1, "&U|&PGM|."⟩], none⟩ ⟨0⟩ {}
  rw [hrun] at houtcome
  refine line_tokens_removed (removing 2) plainRequest ⟨[⟨1, "&U|&PGM|."⟩], none⟩ ⟨0⟩ {} rfl g
    .refl ⟨1, "&U|&PGM|."⟩ ?_ (by decide) (fun v t hreplaced => ?_) h hgoes report houtcome
  · exact sourcePlan_begins ⟨1, "&U|&PGM|."⟩ [] none (fun _ => Rules.finishPlan) g.run []
  · rw [hreplaced] at hsettle
    cases hsettle

/-- What is removed completes a macro that has a trigger, and one that the last pass puts in has
none: both are written, and neither line is noted as a runaway. -/
theorem macros_left_by_removal :
    (((removing 10).run plainRequest (.ofText "&PG&U(x)M|\n") ⟨0⟩ {}).1 =
        .ok { linesRead := 1, linesWritten := 1, passes := 1,
              unknownTriggers := [⟨"t", 1, "&U(x)"⟩] } ∧
      ((removing 10).run plainRequest (.ofText "&PG&U(x)M|\n") ⟨0⟩ {}).2.lines = #["&PGM|"] ∧
      (tokenize "&PGM|").map (fun t => (removing 10).registry.contains t.name) = [true]) ∧
    (((removing 1).run plainRequest (.ofText "&UPPER(&b|)|\n") ⟨0⟩ {}).1 =
        .ok { linesRead := 1, linesWritten := 1, passes := 1 } ∧
      ((removing 1).run plainRequest (.ofText "&UPPER(&b|)|\n") ⟨0⟩ {}).2.lines = #["&B|"] ∧
      (tokenize "&B|").map (fun t => (removing 1).registry.contains t.name) = [false]) :=
  ⟨⟨Effect.eq_ok_of_toOption (by decide +kernel), by decide +kernel, by decide +kernel⟩,
    Effect.eq_ok_of_toOption (by decide +kernel), by decide +kernel, by decide +kernel⟩

end Engine

end Stencil
