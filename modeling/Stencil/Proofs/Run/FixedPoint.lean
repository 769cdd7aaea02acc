import Stencil.Proofs.Lines
import Stencil.Proofs.Run.Noted
import Stencil.Proofs.Token.Trailing
import Stencil.Proofs.Trigger.Quiet

/-!
# Resolved output is a fixed point

What a run has written can be run again. As long as no line-replacing trigger fires and no line
runs away, each line of a template becomes one line of output at most, in which no token has a
trigger (`processLines_resolves`). Such lines are copied by any run with the same triggers: it makes
one pass over each line that carries macros, which resolves nothing (`processLines_copies`).
-/

namespace Stencil.Engine

variable {e : Engine} {sub : Sub} {room : Nat} {r s t : Run}

/-! ## Lines that settle without being replaced -/

/-- From the run `r` on, each line with macros settles, in the run in which it is begun, to a final
text with a flag that tells whether any token was resolved, and these are as `P` says. -/
def EachSettles (e : Engine) (sub : Sub) (P : Line → List Char → Bool → Prop) :
    List Line → Run → Prop
  | [], _ => True
  | l :: ls, r =>
    (carriesMacros l.text.toList = true → ∃ final resolvedAny t,
      settle e sub e.limits.passes l.text.toList false (beginLine l.number r) =
        (.ok (.text final resolvedAny), t) ∧ P l final resolvedAny) ∧
    EachSettles e sub P ls (processLine e sub l (beginLine l.number r)).2

/-- A token whose trigger is quiet leaves what was written. -/
theorem resolveToken_quiet (sub : Sub) {trigger : Trigger} (htrigger : trigger.Quiet) (column : Nat)
    (u : Token) (r : Run) : (resolveToken e sub column u trigger r).2.sink = r.sink := by
  rw [resolveToken, Effect.modify_bind, Effect.bind_eq]
  have hperform := perform_quiet (e := e) sub
    (htrigger (u.paramsUpTo trigger.maxParams)) (r.mapContext fun c =>
      { c with token := some (String.ofList (u.sourceUpTo trigger.maxParams)), column })
  revert hperform
  rcases perform e sub (trigger.resolve (u.paramsUpTo trigger.maxParams)) _ with ⟨_ | value, s⟩
  · exact id
  · exact id

/-- A pass in which no line-replacing trigger fires leaves what was written. -/
theorem resolvePieces_quiet (hquiet : e.registry.Quiet) {column n : Nat} {ps : List Piece}
    {mid : List Char} (h : resolvePieces e sub column ps r = (.ok (.rewritten mid n), s)) :
    s.sink = r.sink := by
  induction ps generalizing column n mid r s with
  | nil =>
    cases h
    rfl
  | cons p ps ih =>
    cases p with
    | plain c =>
      obtain ⟨o, s', hrest, hkept⟩ := Effect.bind_eq_ok_iff.1 h
      obtain ⟨heq, rfl⟩ := Effect.pure_eq_ok_iff.1 hkept
      obtain ⟨text, rfl, -⟩ := kept_eq_rewritten_iff.1 heq
      exact ih hrest
    | token u =>
      cases hfind : e.registry.find? u.name with
      | none =>
        simp only [resolvePieces, hfind, Effect.modify_bind] at h
        obtain ⟨o, s', hrest, hkept⟩ := Effect.bind_eq_ok_iff.1 h
        obtain ⟨heq, rfl⟩ := Effect.pure_eq_ok_iff.1 hkept
        obtain ⟨text, rfl, -⟩ := kept_eq_rewritten_iff.1 heq
        have hsink := ih hrest
        exact hsink
      | some trigger =>
        simp only [resolvePieces, hfind] at h
        obtain ⟨value, s', htoken, h⟩ := Effect.bind_eq_ok_iff.1 h
        split at h
        · cases h
        · next hplain =>
          have hsink := resolveToken_quiet (e := e) sub
            (hquiet u.name trigger hfind (by simpa using hplain)) column u r
          rw [htoken] at hsink
          obtain ⟨o, s'', hrest, hresolved⟩ := Effect.bind_eq_ok_iff.1 h
          obtain ⟨heq, rfl⟩ := Effect.pure_eq_ok_iff.1 hresolved
          cases o with
          | replaced v => cases heq
          | rewritten text m => exact (ih hrest).trans hsink

theorem pass_quiet (hquiet : e.registry.Quiet) {text mid : List Char} {n : Nat}
    (h : pass e sub text r = (.ok (.rewritten mid n), s)) : s.sink = r.sink := by
  rw [pass, Effect.modify_bind] at h
  have hsink := resolvePieces_quiet hquiet h
  exact hsink

/-- So do all passes over a line that is not replaced. -/
theorem settle_quiet (hquiet : e.registry.Quiet) {left : Nat} {text final : List Char}
    {before after : Bool}
    (h : settle e sub (left + 1) text before r = (.ok (.text final after), t)) :
    t.sink = r.sink := by
  induction left using Nat.strongRecOn generalizing text before r with
  | ind left ih =>
    obtain ⟨mid, n, s, hpass, ⟨-, -, -, rfl⟩ | ⟨-, -, -, -, rfl⟩ | ⟨-, -, -, -, rfl⟩ |
      ⟨-, hleft, hrest⟩⟩ := settle_succ_eq_text h
    · exact pass_quiet hquiet hpass
    · exact pass_quiet hquiet hpass
    · rw [← pass_quiet hquiet hpass]
      split <;> rfl
    · obtain ⟨left, rfl⟩ : ∃ left', left = left' + 1 := ⟨left - 1, by omega⟩
      exact (ih left (by omega) hrest).trans (pass_quiet hquiet hpass)

/-- A line that is not replaced and not noted as a runaway has no token with a trigger left. -/
theorem settle_exhausts (hkeep : e.limits.unknown = .keep) (hsub : SubDoes e room sub) {left : Nat}
    {text final : List Char} {before after : Bool}
    (h : settle e sub (left + 1) text before r = (.ok (.text final after), t))
    (hnone : t.report.runawayLines = []) : Exhausted e final := by
  obtain ⟨counts, s, -, -, -, -, ⟨hexhausted, -⟩ | ⟨-, -, -, rfl⟩⟩ := settle_ends hkeep hsub h
  · exact hexhausted
  · exact absurd hnone (by simp [Run.mapReport, Report.noteRunaway])

/-! ## Lines that are written -/

/-- A line of resolved output: no line feed stands in it, and no token of it has a trigger. -/
structure Resolved (e : Engine) (line : String) : Prop where
  single : '\n' ∉ line.toList
  exhausted : Exhausted e line.toList

/-- Without a carriage return at its end a text holds no other tokens. -/
theorem Exhausted.dropReturn {text : List Char} (h : Exhausted e text) :
    Exhausted e (dropLastIf '\r' text) := by
  unfold dropLastIf
  split
  · next hlast =>
    obtain ⟨front, rfl⟩ := List.getLast?_eq_some_iff.1 hlast
    rw [List.dropLast_concat]
    intro u hu
    obtain ⟨v, hv, hname⟩ := List.mem_map.1 (names_return front ▸ List.mem_map_of_mem hu)
    rw [← hname]
    exact h v hv
  · exact h

/-- A text without a line feed is written as one line. -/
theorem emit_single {text : List Char} (h : '\n' ∉ text) :
    emit text = writeLines [String.ofList (dropLastIf '\r' text)] := by
  rw [emit, valueLines, List.splitOn_eq_singleton h, List.map_singleton]

theorem writeLine_lines {line : String} (h : writeLine line r = (.ok (), s)) :
    s.sink.lines.toList = r.sink.lines.toList ++ [line] := by
  rw [← follow_write, Instruction.follow] at h
  split at h
  · next hwritten =>
    obtain ⟨sink, hsink, rfl⟩ := Instruction.apply_write hwritten
    cases h
    rw [Sink.eq_of_write hsink]
    exact Array.toList_push
  · cases h

/-- What a line becomes that is not replaced: one line of resolved output, or none. -/
theorem processLine_resolves (hkeep : e.limits.unknown = .keep) (hquiet : e.registry.Quiet)
    (hsub : SubDoes e room sub) {l : Line} (hl : '\n' ∉ l.text.toList)
    (hsettles : carriesMacros l.text.toList = true → ∃ final resolvedAny t,
      settle e sub e.limits.passes l.text.toList false r = (.ok (.text final resolvedAny), t) ∧
      '\n' ∉ final)
    (h : processLine e sub l r = (.ok (), s)) (hnone : s.report.runawayLines = []) :
    ∃ written : List String, s.sink.lines.toList = r.sink.lines.toList ++ written ∧
      ∀ w ∈ written, Resolved e w := by
  unfold processLine at h
  split at h
  · next hcarries =>
    obtain ⟨final, resolvedAny, t, hsettle, hfinal⟩ := hsettles hcarries
    obtain ⟨o, t', hsettle', hemit⟩ := Effect.bind_eq_ok_iff.1 h
    rw [hsettle] at hsettle'
    cases hsettle'
    obtain ⟨left, hleft⟩ := passes_eq_succ e.limits
    rw [hleft] at hsettle
    have hsink : t.sink = r.sink := settle_quiet hquiet hsettle
    rw [emitSettled_text] at hemit
    split at hemit
    · cases hemit
      exact ⟨[], by rw [hsink, List.append_nil], nofun⟩
    · have hlater : Reaches e 0 .line t (emit final t).2 := emit_does final t
      rw [hemit] at hlater
      have hexhausted : Exhausted e final := by
        refine settle_exhausts hkeep hsub hsettle (List.eq_nil_iff_forall_not_mem.2 fun u hu => ?_)
        have hnoted := hlater.extends.runaway hu
        rw [hnone] at hnoted
        cases hnoted
      rw [emit_single hfinal, writeLines] at hemit
      obtain ⟨_, s', hwrite, hdone⟩ := Effect.bind_eq_ok_iff.1 hemit
      cases hdone
      refine ⟨[String.ofList (dropLastIf '\r' final)], ?_, fun w hw => ?_⟩
      · rw [writeLine_lines hwrite, hsink]
      · rw [List.mem_singleton.1 hw]
        refine ⟨?_, ?_⟩
        · rw [String.toList_ofList]
          exact not_mem_dropLastIf hfinal
        · rw [String.toList_ofList]
          exact hexhausted.dropReturn
  · next hcarries =>
    refine ⟨[l.text], writeLine_lines h, fun w hw => ?_⟩
    rw [List.mem_singleton.1 hw]
    exact ⟨hl, exhausted_of_not_carriesMacros (by simpa using hcarries)⟩

/-- What the lines of a template become when none is replaced: lines of resolved output. -/
theorem processLines_resolves (hkeep : e.limits.unknown = .keep) (hquiet : e.registry.Quiet)
    (hsub : SubDoes e room sub) {ls : List Line} (hls : ∀ l ∈ ls, '\n' ∉ l.text.toList)
    (hsettles : EachSettles e sub (fun _ final _ => '\n' ∉ final) ls r)
    (h : processLines e sub ls r = (.ok (), s)) (hnone : s.report.runawayLines = []) :
    ∃ written : List String, s.sink.lines.toList = r.sink.lines.toList ++ written ∧
      ∀ w ∈ written, Resolved e w := by
  induction ls generalizing r with
  | nil =>
    cases h
    exact ⟨[], by simp, nofun⟩
  | cons l ls ih =>
    rw [processLines_cons] at h
    obtain ⟨_, t, hline, hrest⟩ := Effect.bind_eq_ok_iff.1 h
    obtain ⟨hfirst, hlater⟩ := hsettles
    rw [hline] at hlater
    have hreaches := (processLines_alike kept_true hsub.alike ls).does t
    rw [hrest] at hreaches
    have hearlier : t.report.runawayLines = [] := by
      refine List.eq_nil_iff_forall_not_mem.2 fun u hu => ?_
      have hnoted := hreaches.extends.runaway hu
      rw [hnone] at hnoted
      cases hnoted
    obtain ⟨first, hsink, hresolved⟩ := processLine_resolves hkeep hquiet hsub
      (hls l List.mem_cons_self) hfirst hline hearlier
    obtain ⟨later, hsink', hresolved'⟩ :=
      ih (fun k hk => hls k (List.mem_cons_of_mem l hk)) hlater hrest
    refine ⟨first ++ later, ?_, fun w hw => ?_⟩
    · rw [hsink', hsink, List.append_assoc]
      rfl
    · rcases List.mem_append.1 hw with hw | hw
      · exact hresolved w hw
      · exact hresolved' w hw

/-! ## Lines that are copied -/

/-- A sink that has refused nothing and will not. -/
structure Accepting (sink : Sink) : Prop where
  limit : sink.limit = none
  flushFailure : sink.flushFailure = none

theorem Accepting.write {sink : Sink} (h : Accepting sink) (line : String) :
    ∃ after, sink.write line = .ok after ∧ after.lines.toList = sink.lines.toList ++ [line] ∧
      Accepting after := by
  obtain ⟨lines, flushes, limit, failure⟩ := sink
  obtain ⟨rfl, rfl⟩ := h
  exact ⟨_, rfl, Array.toList_push, rfl, rfl⟩

theorem writeLine_accepting (h : Accepting r.sink) (line : String) :
    ∃ s, writeLine line r = (.ok (), s) ∧ s.sink.lines.toList = r.sink.lines.toList ++ [line] ∧
      Accepting s.sink := by
  obtain ⟨after, hwrite, hlines, hafter⟩ := h.write line
  refine ⟨{ r with
    sink := after
    report := { r.report with linesWritten := r.report.linesWritten + 1 } }, ?_, hlines, hafter⟩
  rw [← follow_write, Instruction.follow, Instruction.apply, hwrite]

/-- A line of resolved output is copied, unless it ends in a carriage return. -/
theorem processLine_copies (sub : Sub) (hkeep : e.limits.unknown = .keep) {l : Line}
    (hl : Resolved e l.text) (hreturn : l.text.toList.getLast? ≠ some '\r')
    (hr : Accepting r.sink) :
    ∃ s, processLine e sub l r = (.ok (), s) ∧
      s.sink.lines.toList = r.sink.lines.toList ++ [l.text] ∧ Accepting s.sink := by
  unfold processLine
  split
  · obtain ⟨passes, unknown, hsettle⟩ :=
      settle_exhausted sub hkeep hl.exhausted e.limits.passes false r
    have hnoting : Accepting (r.noting passes unknown).sink := hr
    rw [Effect.bind_eq, hsettle]
    obtain ⟨t, hwrite, hlines, ht⟩ := writeLine_accepting hnoting l.text
    refine ⟨t, ?_, hlines, ht⟩
    simp only [emitSettled_text, Bool.false_eq_true, and_false, if_false]
    rw [emit_single hl.single, dropLastIf_of_ne hreturn, String.ofList_toList, writeLines,
      Effect.bind_eq, hwrite]
    rfl
  · exact writeLine_accepting hr l.text

/-- So are all such lines, and no token is resolved on any. -/
theorem processLines_copies (sub : Sub) (hkeep : e.limits.unknown = .keep) {ls : List Line}
    (hls : ∀ l ∈ ls, Resolved e l.text ∧ l.text.toList.getLast? ≠ some '\r')
    (hr : Accepting r.sink) :
    (∃ s, processLines e sub ls r = (.ok (), s) ∧
      s.sink.lines.toList = r.sink.lines.toList ++ ls.map (·.text) ∧ Accepting s.sink) ∧
    EachSettles e sub (fun l final resolvedAny => final = l.text.toList ∧ resolvedAny = false)
      ls r := by
  induction ls generalizing r with
  | nil => exact ⟨⟨r, rfl, by simp, hr⟩, trivial⟩
  | cons l ls ih =>
    obtain ⟨hl, hreturn⟩ := hls l List.mem_cons_self
    obtain ⟨s, hline, hlines, hs⟩ := processLine_copies sub (r := beginLine l.number r) hkeep
      hl hreturn hr
    obtain ⟨⟨t, hrest, hlines', ht⟩, hsettles⟩ :=
      ih (fun k hk => hls k (List.mem_cons_of_mem l hk)) hs
    refine ⟨⟨t, ?_, ?_, ht⟩, fun _ => ?_, ?_⟩
    · rw [processLines_cons, Effect.bind_eq, hline]
      exact hrest
    · rw [hlines', hlines, List.map_cons, List.append_assoc]
      rfl
    · obtain ⟨passes, unknown, hsettle⟩ :=
        settle_exhausted sub hkeep hl.exhausted e.limits.passes false (beginLine l.number r)
      exact ⟨_, _, _, hsettle, rfl, rfl⟩
    · rw [hline]
      exact hsettles

/-! ## Whole runs -/

/-- Lines as a text, each followed by a line feed. -/
def textOfLines (lines : List String) : String :=
  String.ofList (lines.flatMap fun l => l.toList ++ ['\n'])

/-- The text of such lines is read as these lines. -/
theorem ofText_textOfLines {lines : List String}
    (hlines : ∀ l ∈ lines, '\n' ∉ l.toList ∧ l.toList.getLast? ≠ some '\r') :
    Source.ofText (textOfLines lines) = ⟨Line.numbered 1 lines, none⟩ := by
  have hbreak : breakLines '\n' '\r' ((lines.map String.toList).flatMap (· ++ ['\n'])) =
      lines.map String.toList := by
    refine breakLines_terminated fun l hl => ?_
    obtain ⟨line, hline, rfl⟩ := List.mem_map.1 hl
    exact hlines line hline
  rw [List.flatMap_map] at hbreak
  rw [Source.ofText, textOfLines, String.toList_ofList, hbreak]
  simp [Function.comp_def]

/-- The lines of a text hold no line feed. -/
theorem ofText_single {text : String} {l : Line} (hl : l ∈ (Source.ofText text).lines) :
    '\n' ∉ l.text.toList := by
  have htext : l.text ∈ (Line.numbered 1 ((breakLines '\n' '\r' text.toList).map
      String.ofList)).map (·.text) := List.mem_map_of_mem hl
  rw [Line.map_text_numbered] at htext
  obtain ⟨cs, hcs, heq⟩ := List.mem_map.1 htext
  rw [← heq, String.toList_ofList]
  exact not_mem_of_mem_breakLines hcs

theorem Accepting.flush {sink : Sink} (h : Accepting sink) : ∃ after, sink.flush = .ok after := by
  obtain ⟨lines, flushes, limit, failure⟩ := sink
  obtain ⟨rfl, rfl⟩ := h
  exact ⟨_, rfl⟩

/-- The end of a run writes nothing and notes nothing, -/
theorem finish_eq_ok (h : finish r = (.ok (), s)) :
    s.sink.lines = r.sink.lines ∧ s.report = r.report := by
  rw [finish, Effect.get_bind] at h
  by_cases hmain : r.context.isMain
  · rw [if_pos hmain] at h
    cases hflush : r.sink.flush with
    | error cause =>
      simp only [hflush] at h
      cases h
    | ok after =>
      simp only [hflush] at h
      cases h
      rw [Sink.eq_of_flush hflush]
      exact ⟨rfl, rfl⟩
  · rw [if_neg hmain] at h
    cases h
    exact ⟨rfl, rfl⟩

/-- and where no flush is refused, it goes well. -/
theorem finish_accepting (h : Accepting r.sink) : ∃ s, finish r = (.ok (), s) := by
  obtain ⟨after, hflush⟩ := h.flush
  rw [finish, Effect.get_bind]
  split
  · exact ⟨{ r with sink := after }, by simp only [hflush]; rfl⟩
  · exact ⟨r, rfl⟩

/-- A run over a text goes well where its lines and the end of the run do. -/
theorem run_ofText_eq_ok_iff {q : Request} {text : String} {now : Moment} {start sink : Sink}
    {report : Report} : e.run q (.ofText text) now start = (.ok report, sink) ↔
      ∃ s t, processLines e (call e e.limits.maxDepth) (Source.ofText text).lines
        (e.begin q now start) = (.ok (), s) ∧ finish s = (.ok (), t) ∧
        t.report = report ∧ t.sink = sink := by
  have hsession : session e (.ofText text) (e.begin q now start) =
      (processLines e (call e e.limits.maxDepth) (Source.ofText text).lines >>= fun _ => finish)
        (e.begin q now start) := by
    rw [session, processSource, bind_assoc]
    rfl
  have hrun : e.run q (.ofText text) now start =
      (((session e (.ofText text) (e.begin q now start)).1.map fun _ =>
        (session e (.ofText text) (e.begin q now start)).2.report),
        (session e (.ofText text) (e.begin q now start)).2.sink) := rfl
  rw [hrun, hsession]
  constructor
  · intro h
    rcases hx : (processLines e (call e e.limits.maxDepth) (Source.ofText text).lines >>=
      fun _ => finish) (e.begin q now start) with ⟨err | _, t⟩
    · rw [hx] at h
      cases h
    · rw [hx] at h
      obtain ⟨_, s, hlines, hfinish⟩ := Effect.bind_eq_ok_iff.1 hx
      cases h
      exact ⟨s, t, hlines, hfinish, rfl, rfl⟩
  · rintro ⟨s, t, hlines, hfinish, rfl, rfl⟩
    rw [Effect.bind_eq_ok_iff.2 ⟨(), s, hlines, hfinish⟩]
    rfl

/-- **Resolved output is a fixed point.** Take any run over a text, with the triggers of a backend
and the policy that keeps unknown tokens, that ends well and without runaway lines, in which no line
is replaced by a trigger and no final text holds a line feed, and which writes no line that ends in
a carriage return. Whatever engine with the same triggers and policy runs whatever request over the
lines that were written, each followed by a line feed: that run ends well and writes just these
lines, and it resolves no token on any of them. -/
theorem resolved_output_fixed (b : Backend) (e : Engine) (hregistry : e.registry = b.registry)
    (hkeep : e.limits.unknown = .keep) (q : Request) (text : String) (now : Moment)
    (report : Report) (sink : Sink)
    (hrun : e.run q (.ofText text) now {} = (.ok report, sink))
    (hrunaway : report.runawayLines = [])
    (hsettles : EachSettles e (call e e.limits.maxDepth) (fun _ final _ => '\n' ∉ final)
      (Source.ofText text).lines (e.begin q now {}))
    (hreturn : ∀ w ∈ sink.lines.toList, w.toList.getLast? ≠ some '\r')
    (e' : Engine) (hregistry' : e'.registry = b.registry) (hkeep' : e'.limits.unknown = .keep)
    (q' : Request) (now' : Moment) :
    (∃ report' sink', e'.run q' (.ofText (textOfLines sink.lines.toList)) now' {} =
      (.ok report', sink') ∧ sink'.lines = sink.lines) ∧
    EachSettles e' (call e' e'.limits.maxDepth)
      (fun l final resolvedAny => final = l.text.toList ∧ resolvedAny = false)
      (Source.ofText (textOfLines sink.lines.toList)).lines (e'.begin q' now' {}) := by
  -- what the first run writes is resolved
  obtain ⟨s, t, hlines, hfinish, rfl, rfl⟩ := run_ofText_eq_ok_iff.1 hrun
  obtain ⟨hsink, hreport⟩ := finish_eq_ok hfinish
  obtain ⟨written, hwritten, hresolved⟩ := processLines_resolves hkeep
    (hregistry ▸ b.registry_quiet) (call_does e _) (fun l hl => ofText_single hl) hsettles hlines
    (hreport ▸ hrunaway)
  have hwritten : t.sink.lines.toList = written := by
    rw [hsink, hwritten]
    rfl
  rw [hwritten] at hreturn ⊢
  -- the second run reads and copies it
  have hsource : Source.ofText (textOfLines written) = ⟨Line.numbered 1 written, none⟩ :=
    ofText_textOfLines fun w hw => ⟨(hresolved w hw).single, hreturn w hw⟩
  have hcopied : ∀ l ∈ (Source.ofText (textOfLines written)).lines,
      Resolved e' l.text ∧ l.text.toList.getLast? ≠ some '\r' := by
    intro l hl
    have hmem : l.text ∈ (Line.numbered 1 written).map (·.text) := by
      rw [hsource] at hl
      exact List.mem_map_of_mem hl
    rw [Line.map_text_numbered] at hmem
    refine ⟨⟨(hresolved _ hmem).single, ?_⟩, hreturn _ hmem⟩
    rw [Exhausted, hregistry', ← hregistry]
    exact (hresolved _ hmem).exhausted
  obtain ⟨⟨s', hlines', hsink', haccepting⟩, hsettles'⟩ := processLines_copies
    (call e' e'.limits.maxDepth) (r := e'.begin q' now' {}) hkeep' hcopied ⟨rfl, rfl⟩
  obtain ⟨t', hfinish'⟩ := finish_accepting haccepting
  refine ⟨⟨_, _, run_ofText_eq_ok_iff.2 ⟨s', t', hlines', hfinish', rfl, rfl⟩, ?_⟩, hsettles'⟩
  have hall : t'.sink.lines.toList = t.sink.lines.toList := by
    rw [(finish_eq_ok hfinish').1, hsink', hsource, Line.map_text_numbered, hwritten]
    rfl
  exact Array.toList_inj.1 hall

/-- An engine with the triggers of a backend. -/
def shipped (passes : Nat) : Engine where
  registry := Backend.java.registry
  schema := .absent
  store t := .error (.templateNotFound t .notFound)
  limits := { maxIterations := passes }

/-- A plain line, a macro in front of a terminator with a carriage return, and an unknown macro. -/
theorem resolved_output_copied :
    (∃ report sink, (shipped 1).run { plainRequest with template := "again" }
      (.ofText (textOfLines ["A", "O;", "&NOPE|"])) ⟨1⟩ {} = (.ok report, sink) ∧
        sink.lines = #["A", "O;", "&NOPE|"]) ∧
    EachSettles (shipped 1) (call (shipped 1) 16)
      (fun l final resolvedAny => final = l.text.toList ∧ resolvedAny = false)
      (Source.ofText (textOfLines ["A", "O;", "&NOPE|"])).lines
      ((shipped 1).begin { plainRequest with template := "again" } ⟨1⟩ {}) := by
  have hreport : ((shipped 10).run plainRequest (.ofText "A\n&PGM|;\r\n&NOPE|") ⟨0⟩ {}).1 =
      .ok { linesRead := 3, linesWritten := 3, passes := 2,
            unknownTriggers := [⟨"t", 3, "&NOPE|"⟩] } :=
    Effect.eq_ok_of_toOption (by decide +kernel)
  have hsink : ((shipped 10).run plainRequest (.ofText "A\n&PGM|;\r\n&NOPE|") ⟨0⟩ {}).2 =
      { lines := #["A", "O;", "&NOPE|"], flushes := 1 } := by decide +kernel
  have hlines : (Source.ofText "A\n&PGM|;\r\n&NOPE|").lines =
      [⟨1, "A"⟩, ⟨2, "&PGM|;"⟩, ⟨3, "&NOPE|"⟩] := by decide +kernel
  refine resolved_output_fixed .java (shipped 10) rfl rfl plainRequest "A\n&PGM|;\r\n&NOPE|" ⟨0⟩ _
    _ (Prod.ext hreport hsink) rfl ?_ (by decide) (shipped 1) rfl rfl _ _
  rw [hlines]
  refine ⟨fun h => absurd h (by decide),
    fun _ => ⟨"O;".toList, true, _, Prod.ext ?_ rfl, by decide⟩,
    fun _ => ⟨"&NOPE|".toList, false, _, Prod.ext ?_ rfl, by decide⟩, trivial⟩
  · exact Effect.eq_ok_of_toOption (by decide +kernel)
  · exact Effect.eq_ok_of_toOption (by decide +kernel)

end Stencil.Engine
