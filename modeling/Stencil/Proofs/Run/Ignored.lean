import Mathlib.Data.List.Forall2
import Stencil.Proofs.Run.Removed
import Stencil.Proofs.Run.Single
import Stencil.Proofs.Run.Substituted

/-!
# Templates of unknown tokens

A template none of whose tokens has a trigger asks for nothing that depends on the run: its plan is a
straight line of instructions (`sourcePlan_ignored`). On each line the tokens are noted, and then the
line is written, once and as the policy leaves it. What a run makes of such a template is read off
these instructions one line after the other, whatever they write into (`run_ignores`).
-/

namespace Stencil

open Text (byteSize)

/-! ## Straight plans -/

/-- Whether the instruction shows a token to its trigger. -/
def Instruction.shows : Instruction → Bool
  | .showToken _ _ => true
  | _ => false

namespace Plan

variable {α β : Type} {e : Engine} {sub : Engine.Sub}

/-- The plan that goes through some instructions and comes to `v`. -/
def through (is : List Instruction) (v : α) : Plan α := is.foldr .act (.done v)

/-- What comes after a straight plan comes after its instructions. -/
theorem through_bind (is : List Instruction) (v : α) (f : α → Plan β) :
    through is v >>= f = is.foldr act (f v) := by
  show (through is v).bind f = _
  induction is with
  | nil => rfl
  | cons i is ih => exact congrArg (act i) ih

/-- If it is straight, too, it prolongs the plan. -/
theorem through_append (is js : List Instruction) (v : α) :
    is.foldr act (through js v) = through (is ++ js) v := List.foldr_append.symm

/-- An instruction that succeeds is followed, and the plan goes on with what it leaves. -/
theorem follow_through_cons {i : Instruction} {r s : Run} (hi : i.apply r = .ok s)
    (is : List Instruction) :
    (through (i :: is) ()).follow e sub r = (through is ()).follow e sub s := by
  show (i.follow >>= fun _ => (through is ()).follow e sub) r = _
  rw [Effect.bind_eq, Instruction.follow, hi]

/-- Instructions in a row are followed in a row. -/
theorem follow_through_append (is js : List Instruction) :
    (through (is ++ js) ()).follow e sub =
      (through is ()).follow e sub >>= fun _ => (through js ()).follow e sub := by
  rw [← through_append, ← through_bind is () fun _ => through js (), follow_bind]

/-- The plan takes up no token with a trigger, looks up no fields and calls no sub-template. -/
def Untriggered : Plan α → Prop
  | done _ => True
  | fail _ => True
  | look k => ∀ v, (k v).Untriggered
  | act i p => i.shows = false ∧ p.Untriggered
  | fields _ _ => False
  | call _ _ _ _ => False

/-- A straight plan that shows no token, before one that takes up none. -/
theorem untriggered_through {is : List Instruction} (his : ∀ i ∈ is, i.shows = false) {v : α}
    {f : α → Plan β} (hf : (f v).Untriggered) : (through is v >>= f).Untriggered := by
  show ((through is v).bind f).Untriggered
  induction is with
  | nil => exact hf
  | cons i is ih =>
    exact ⟨his i List.mem_cons_self, ih fun j hj => his j (List.mem_cons_of_mem i hj)⟩

/-- To take up a token with a trigger is to show it first. -/
theorem not_untriggered_tokenPlan (column : Nat) (t : Token) (trigger : Trigger)
    (f : Option String → Plan β) : ¬ (Rules.tokenPlan column t trigger >>= f).Untriggered :=
  fun h => Bool.noConfusion h.1

end Plan

/-! ## Sinks with room -/

namespace Sink

/-- The sink takes `count` further lines. -/
def Accepts (sink : Sink) (count : Nat) : Prop :=
  ∀ n cause, sink.limit = some (n, cause) → sink.lines.size + count ≤ n

/-- The sink with further lines. -/
def taking (sink : Sink) (lines : List String) : Sink :=
  { sink with lines := sink.lines ++ lines.toArray }

theorem taking_nil (sink : Sink) : sink.taking [] = sink := by
  rw [taking, Array.append_empty]

theorem taking_taking (sink : Sink) (lines lines' : List String) :
    (sink.taking lines).taking lines' = sink.taking (lines ++ lines') := by
  simp only [taking, ← List.append_toArray, Array.append_assoc]

theorem write_of_accepts {sink : Sink} {count : Nat} (h : sink.Accepts (count + 1))
    (line : String) : sink.write line = .ok (sink.taking [line]) := by
  rw [write, taking, ← Array.push_eq_append]
  split
  · next n cause hlimit =>
    have := h n cause hlimit
    rw [if_neg (by omega)]
  · rfl

/-- What is taken uses up room. -/
theorem Accepts.taking {sink : Sink} {count : Nat} {lines : List String}
    (h : sink.Accepts (lines.length + count)) : (sink.taking lines).Accepts count := by
  intro n cause hlimit
  have := h n cause hlimit
  simp only [Sink.taking, Array.size_append, List.size_toArray]
  omega

end Sink

namespace Engine

/-! ## Lines of unknown tokens -/

variable {e : Engine} {sub : Sub} {r s t : Run}

/-- What a line becomes none of whose tokens has a trigger. -/
def ignored (policy : UnknownPolicy) (text : String) : String :=
  if carriesMacros text.toList then
    String.ofList (dropLastIf '\r'
      (match policy with
        | .keep => text.toList
        | .remove => withoutTokens text.toList))
  else text

/-- What is done on such a line: its tokens are noted in one pass, if it carries macros, and what
becomes of it is written. -/
def ignoring (e : Engine) (l : Line) : List Instruction :=
  .beginLine l.number ::
    ((if carriesMacros l.text.toList then
        .beginPass :: (tokenize l.text).map .noteUnknown
      else []) ++ [.write (ignored e.limits.unknown l.text)])

/-- Pieces without a registered token are gone through, and their tokens noted. -/
theorem piecesPlan_unregistered (column : Nat) {ps : List Piece}
    (hnone : ∀ u ∈ ps.filterMap Piece.token?, e.registry.contains u.name = false) :
    Rules.piecesPlan e.rules column ps =
      .through ((ps.filterMap Piece.token?).map .noteUnknown)
        (.rewritten (ps.flatMap e.leaves) 0) := by
  induction ps generalizing column with
  | nil => rfl
  | cons p ps ih =>
    cases p with
    | plain c =>
      rw [Rules.piecesPlan, ih _ hnone, Plan.through_bind]
      rfl
    | token u =>
      have hunknown : e.registry.find? u.name = none := by
        simpa [Registry.contains] using hnone u List.mem_cons_self
      have hrest := ih (advance column u.source) fun v hv => hnone v (List.mem_cons_of_mem u hv)
      simp only [Rules.piecesPlan, rules, hunknown]
      rw [← rules, hrest, Plan.through_bind]
      rfl

/-- A text without a registered token takes one pass, which settles it. -/
theorem settlePlan_unregistered {text : List Char} (hnone : Exhausted e text) (left : Nat) :
    Rules.settlePlan e.rules (left + 1) text false =
      .through (.beginPass :: (tokenize (String.ofList text)).map .noteUnknown)
        (.text (e.remains text) false) := by
  rw [Exhausted, tokenize, String.toList_ofList] at hnone
  rw [Rules.settlePlan, Rules.passPlan, piecesPlan_unregistered 0 hnone, tokenize,
    String.toList_ofList]
  exact Plan.through_bind (.beginPass :: _) _ _

/-- No character of a line is in what is left of it that was not in the line. -/
theorem mem_of_mem_remains {text : List Char} {c : Char} (hc : c ∈ e.remains text) : c ∈ text := by
  obtain ⟨p, hp, hc⟩ := List.mem_flatMap.1 hc
  rw [← flatten_pieces text]
  refine List.mem_flatten.2 ⟨p.source, List.mem_map_of_mem hp, ?_⟩
  cases p with
  | plain d => exact hc
  | token u =>
    rw [leaves, unknownText] at hc
    split at hc
    · exact hc
    · cases hc

theorem ofList_remains (text : String) (hcarries : carriesMacros text.toList = true) :
    String.ofList (dropLastIf '\r' (e.remains text.toList)) = ignored e.limits.unknown text := by
  rw [ignored.eq_def, if_pos hcarries]
  cases hpolicy : e.limits.unknown with
  | keep => rw [remains_keep hpolicy]
  | remove => rw [remains_remove hpolicy]

/-- The plan of a line without a registered token is straight. -/
theorem linePlan_ignored {l : Line} (hsingle : '\n' ∉ l.text.toList)
    (hnone : ∀ t ∈ tokenize l.text, e.registry.contains t.name = false) :
    (Plan.perform (.beginLine l.number) >>= fun _ => e.rules.linePlan l) =
      .through (ignoring e l) () := by
  cases hcarries : carriesMacros l.text.toList with
  | false =>
    simp only [Rules.linePlan, ignoring, ignored, hcarries]
    rfl
  | true =>
    have hexhausted : Exhausted e l.text.toList := by rwa [Exhausted, String.ofList_toList]
    obtain ⟨left, hleft⟩ := passes_eq_succ e.limits
    have hpasses : e.rules.passes = left + 1 := hleft
    have hwrite : Rules.emitPlan (.text (e.remains l.text.toList) false) =
        .through [.write (ignored e.limits.unknown l.text)] () := by
      rw [Rules.emitPlan, Bool.and_false, if_neg Bool.false_ne_true, valueLines,
        List.splitOn_eq_singleton fun hlf => hsingle (mem_of_mem_remains hlf), List.map_singleton,
        ofList_remains l.text hcarries]
      rfl
    simp only [Rules.linePlan, ignoring, hcarries, if_true, hpasses,
      settlePlan_unregistered hexhausted, String.ofList_toList]
    rw [Plan.through_bind, hwrite, Plan.through_append]
    rfl

/-- So is the plan of such lines, -/
theorem linesPlan_ignored {ls : List Line} (hsingle : ∀ l ∈ ls, '\n' ∉ l.text.toList)
    (hnone : ∀ l ∈ ls, ∀ t ∈ tokenize l.text, e.registry.contains t.name = false) :
    e.rules.linesPlan ls = .through (ls.flatMap e.ignoring) () := by
  induction ls with
  | nil => rfl
  | cons l ls ih =>
    have hline := linePlan_ignored (hsingle l List.mem_cons_self) (hnone l List.mem_cons_self)
    have hrest := ih (fun k hk => hsingle k (List.mem_cons_of_mem l hk))
      fun k hk => hnone k (List.mem_cons_of_mem l hk)
    rw [List.flatMap_cons, Rules.linesPlan, hrest, ← Plan.bind_bind, hline, Plan.through_bind,
      Plan.through_append]

/-- and that of a template that can be read to its end. -/
theorem sourcePlan_ignored {source : Source} (hsingle : source.Single)
    (hread : source.failure = none)
    (hnone : ∀ l ∈ source.lines, ∀ t ∈ tokenize l.text, e.registry.contains t.name = false) :
    e.rules.sourcePlan source = .through (source.lines.flatMap e.ignoring) () := by
  rw [Rules.sourcePlan, linesPlan_ignored hsingle hnone, hread]
  exact Plan.through_bind _ () _

/-! ## What comes of them -/

/-- The lines `ls` were copied from the run `r` on, each as the policy leaves it, in one pass if it
carries macros. Nothing else was done than to note their tokens. -/
structure Copied (e : Engine) (ls : List Line) (r s : Run) : Prop where
  sink : s.sink = r.sink.taking (ls.map fun l => ignored e.limits.unknown l.text)
  report : ∃ unknownTriggers, s.report = { r.report with
    linesRead := r.report.linesRead + ls.length
    linesWritten := r.report.linesWritten + ls.length
    passes := r.report.passes + ls.countP (carriesMacros ·.text.toList)
    unknownTriggers }

theorem Copied.trans {ls ks : List Line} (hrs : Copied e ls r s) (hst : Copied e ks s t) :
    Copied e (ls ++ ks) r t := by
  obtain ⟨unknown, hfirst⟩ := hrs.report
  obtain ⟨unknown', hrest⟩ := hst.report
  refine ⟨?_, unknown', ?_⟩
  · rw [hst.sink, hrs.sink, Sink.taking_taking, List.map_append]
  · rw [hrest, hfirst, List.length_append, List.countP_append]
    simp only [Nat.add_assoc]

theorem follow_notes (ts : List Token) (r : Run) : ∃ unknown,
    (Plan.through (ts.map .noteUnknown) ()).follow e sub r =
      (.ok (), r.noting r.report.passes unknown) := by
  induction ts generalizing r with
  | nil => exact ⟨r.report.unknownTriggers, rfl⟩
  | cons t ts ih =>
    obtain ⟨unknown, hrest⟩ := ih (r.mapReport (·.noteUnknown (r.unresolved t.source)))
    refine ⟨unknown, ?_⟩
    rw [List.map_cons, Plan.follow_through_cons rfl, hrest, Run.mapReport, Report.noteUnknown_eq]
    rfl

/-- A sink with room takes a line. -/
theorem apply_write_accepts {count : Nat} (h : r.sink.Accepts (count + 1)) (line : String) :
    (Instruction.write line).apply r = .ok { r with
      sink := r.sink.taking [line]
      report := { r.report with linesWritten := r.report.linesWritten + 1 } } := by
  rw [Instruction.apply, Sink.write_of_accepts h]

/-- One line is copied, -/
theorem follow_ignoring {count : Nat} (hroom : r.sink.Accepts (count + 1)) (l : Line) :
    ∃ s, (Plan.through (e.ignoring l) ()).follow e sub r = (.ok (), s) ∧ Copied e [l] r s := by
  have hwrite (passes : Nat) (unknown : List Unresolved) :
      ∃ s, (Plan.through [.write (ignored e.limits.unknown l.text)] ()).follow e sub
          ((beginLine l.number r).noting passes unknown) = (.ok (), s) ∧
        s.sink = r.sink.taking [ignored e.limits.unknown l.text] ∧
        s.report = { r.report with
          linesRead := r.report.linesRead + 1
          linesWritten := r.report.linesWritten + 1
          passes
          unknownTriggers := unknown } := by
    have hroom : ((beginLine l.number r).noting passes unknown).sink.Accepts (count + 1) := hroom
    exact ⟨_, Plan.follow_through_cons (apply_write_accepts hroom _) [], rfl, rfl⟩
  cases hcarries : carriesMacros l.text.toList with
  | false =>
    obtain ⟨s, hs, hsink, hreport⟩ := hwrite r.report.passes r.report.unknownTriggers
    refine ⟨s, ?_, hsink, r.report.unknownTriggers, ?_⟩
    · rw [ignoring, hcarries, Plan.follow_through_cons rfl]
      exact hs
    · rw [hreport, List.countP_singleton, hcarries]
      rfl
  | true =>
    obtain ⟨unknown, hnotes⟩ := @follow_notes e sub (tokenize l.text)
      (counted (beginLine l.number r))
    obtain ⟨s, hs, hsink, hreport⟩ := hwrite (r.report.passes + 1) unknown
    refine ⟨s, ?_, hsink, unknown, ?_⟩
    · rw [ignoring, hcarries, Plan.follow_through_cons rfl, if_pos rfl, List.cons_append,
        Plan.follow_through_cons rfl, Plan.follow_through_append]
      exact Effect.bind_eq_ok_iff.2 ⟨(), _, hnotes, hs⟩
    · rw [hreport, List.countP_singleton, hcarries]
      rfl

/-- and one after the other all are. -/
theorem follow_ignored {ls : List Line} (hroom : r.sink.Accepts ls.length) :
    ∃ s, (Plan.through (ls.flatMap e.ignoring) ()).follow e sub r = (.ok (), s) ∧
      Copied e ls r s := by
  induction ls generalizing r with
  | nil => exact ⟨r, rfl, r.sink.taking_nil.symm, _, rfl⟩
  | cons l ls ih =>
    obtain ⟨s, hline, hcopied⟩ := @follow_ignoring e sub r ls.length hroom l
    have hleft : s.sink.Accepts ls.length := by
      rw [hcopied.sink]
      exact .taking (by rwa [Nat.add_comm])
    obtain ⟨t, hrest, hcopied'⟩ := ih hleft
    refine ⟨t, ?_, hcopied.trans hcopied'⟩
    rw [List.flatMap_cons, Plan.follow_through_append, Effect.bind_eq, hline]
    exact hrest

/-! ## Written lines -/

/-- The deletion of each token of a text, over its full span. -/
def deletions (text : String) : List Edit :=
  (located text).map fun x => ⟨(x.2.spanned x.1).full, []⟩

/-- The line `text` was written as `written`: as it is, if it carries no macro; if it does, as it is
or with its tokens deleted, but for a carriage return at the end. -/
structure IgnoredAs (policy : UnknownPolicy) (text written : String) : Prop where
  plain : carriesMacros text.toList = false → written = text
  keep : carriesMacros text.toList = true → policy = .keep →
    written.toList = dropLastIf '\r' text.toList
  remove : carriesMacros text.toList = true → policy = .remove →
    ∃ left, applyEdits text.toList 0 (deletions text) = some left ∧
      written.toList = dropLastIf '\r' left

/-- With no reply to any of its tokens, a text is left without them. -/
theorem textWith_none (ps : List Piece) :
    textWith .remove ps ((ps.filterMap Piece.token?).map fun _ => none) =
      ps.flatMap fun
        | .plain c => [c]
        | .token _ => [] := by
  induction ps with
  | nil => rfl
  | cons p ps ih =>
    cases p with
    | plain c => exact congrArg (c :: ·) ih
    | token t => exact ih

/-- The edits for tokens that have no reply delete them. -/
theorem editsFor_none (xs : List (Nat × Token)) :
    editsFor .remove xs (xs.map fun _ => none) =
      xs.map fun x => ⟨(x.2.spanned x.1).full, []⟩ := by
  induction xs with
  | nil => rfl
  | cons x xs ih => exact congrArg (_ :: ·) ih

/-- To take the tokens of a text away is to delete their full spans. -/
theorem applyEdits_deletions (text : String) :
    applyEdits text.toList 0 (deletions text) = some (withoutTokens text.toList) := by
  have hreplies : ((pieces text.toList).filterMap Piece.token?).map (fun _ => none) =
      (located text).map fun _ => (none : Option Reply) := by
    rw [← map_locate Text.byteSize 0, List.map_map]
    rfl
  have hlength : (((pieces text.toList).filterMap Piece.token?).map fun _ =>
      (none : Option Reply)).length = ((pieces text.toList).filterMap Piece.token?).length :=
    List.length_map _
  have hedits := applyEdits_editsFor .remove [] [] (flatten_pieces text.toList).symm rfl hlength
  rw [textWith_none, hreplies] at hedits
  rw [deletions, ← editsFor_none]
  exact hedits

/-- What a line was written as is what becomes of it. -/
theorem ignoredAs_iff {policy : UnknownPolicy} {text written : String} :
    IgnoredAs policy text written ↔ written = ignored policy text := by
  rw [ignored.eq_def]
  constructor
  · intro h
    cases hcarries : carriesMacros text.toList with
    | false => exact h.plain hcarries
    | true =>
      cases policy with
      | keep => exact String.toList_injective ((h.keep hcarries rfl).trans String.toList_ofList.symm)
      | remove =>
        obtain ⟨left, hleft, hwritten⟩ := h.remove hcarries rfl
        obtain rfl := Option.some.inj (hleft.symm.trans (applyEdits_deletions text))
        exact String.toList_injective (hwritten.trans String.toList_ofList.symm)
  · rintro rfl
    refine ⟨fun hcarries => ?_, fun hcarries hkeep => ?_, fun hcarries hremove =>
      ⟨_, applyEdits_deletions text, ?_⟩⟩
    · rw [hcarries]
      rfl
    · rw [hcarries, hkeep]
      exact String.toList_ofList
    · rw [hcarries, hremove]
      exact String.toList_ofList

/-- What lines were written as are what becomes of them, one for each. -/
theorem forall₂_ignoredAs_iff {policy : UnknownPolicy} {lines written : List String} :
    List.Forall₂ (IgnoredAs policy) lines written ↔ written = lines.map (ignored policy) := by
  have hfunction : IgnoredAs policy = fun text w => ignored policy text = w := by
    funext text w
    exact propext (ignoredAs_iff.trans eq_comm)
  rw [hfunction, ← List.forall₂_map_left_iff, List.forall₂_eq_eq_eq, eq_comm]

/-! ## Whole runs -/

/-- From a plan that takes up no token with a trigger, such plans are followed only. -/
theorem next_untriggered {g h : Stage} (hnext : e.next g = some h) (hplan : g.plan.Untriggered)
    (hwaiting : g.waiting = []) : h.plan.Untriggered ∧ h.waiting = [] := by
  cases next_eq_some_iff.1 hnext with
  | returned | aborted => cases hwaiting
  | looked => exact ⟨hplan _, hwaiting⟩
  | acted => exact ⟨hplan.2, hwaiting⟩
  | answered | called => exact hplan.elim
  | failed => exact ⟨trivial, hwaiting⟩

theorem Goes.untriggered {g h : Stage} (hgoes : Goes e g h) (hplan : g.plan.Untriggered)
    (hwaiting : g.waiting = []) : h.plan.Untriggered ∧ h.waiting = [] := by
  induction hgoes with
  | refl => exact ⟨hplan, hwaiting⟩
  | tail _ hnext ih => exact next_untriggered hnext ih.1 ih.2

theorem shows_ignoring {ls : List Line} {i : Instruction} (hi : i ∈ ls.flatMap e.ignoring) :
    i.shows = false := by
  obtain ⟨l, -, hi⟩ := List.mem_flatMap.1 hi
  rcases List.mem_cons.1 hi with rfl | hi
  · rfl
  · rcases List.mem_append.1 hi with hi | hi
    · split at hi
      · rcases List.mem_cons.1 hi with rfl | hi
        · rfl
        · obtain ⟨t, -, rfl⟩ := List.mem_map.1 hi
          rfl
      · cases hi
    · obtain rfl := List.mem_singleton.1 hi
      rfl

/-- At its end a run takes up no token. -/
theorem untriggered_finishPlan : Rules.finishPlan.Untriggered := by
  intro v
  show (if v.context.isMain then Plan.perform .flush else pure ()).Untriggered
  split
  · exact ⟨rfl, trivial⟩
  · trivial

/-- **Unknown macros never change the shape of the output.** Take any bytes as a template, any
request and any engine without a trigger for one of the tokens on its lines, and a sink with room for
them. The run takes up no trigger. It writes one line for each line of the template, in order, as it
is or as the policy leaves it, and makes one pass over each that carries macros. It ends well, unless
it is main and the sink refuses the flush at the end. -/
theorem run_ignores (e : Engine) (q : Request) (bs : Text.Bytes) (now : Moment) (sink : Sink)
    (hnone : ∀ l ∈ (Source.ofBytes bs).lines, ∀ t ∈ tokenize l.text,
      e.registry.contains t.name = false)
    (hroom : sink.Accepts (Source.ofBytes bs).lines.length) :
    let lines := (Source.ofBytes bs).lines.map (·.text)
    ∃ (written : List String) (unknownTriggers : List Unresolved),
      let report : Report :=
        { linesRead := lines.length, linesWritten := lines.length
          passes := lines.countP fun l => carriesMacros l.toList
          unknownTriggers }
      e.run q (.ofBytes bs) now sink =
        (if q.isMain then
          match (sink.taking written).flush with
          | .ok flushed => (.ok report, flushed)
          | .error cause => (.error (.outputUnwritable q.output cause), sink.taking written)
        else (.ok report, sink.taking written)) ∧
      List.Forall₂ (IgnoredAs e.limits.unknown) lines written ∧
      ∀ g, Goes e (e.start q (.ofBytes bs) now sink) g →
        ∀ column t trigger rest, g.plan ≠ Rules.tokenPlan column t trigger >>= rest := by
  intro lines
  have hplan : e.rules.sourcePlan (.ofBytes bs) =
      .through ((Source.ofBytes bs).lines.flatMap e.ignoring) () :=
    sourcePlan_ignored (Source.ofBytes_single bs) rfl hnone
  obtain ⟨s, hfollow, hcopied⟩ := @follow_ignored e (callAtDepth e) (e.begin q now sink) _ hroom
  obtain ⟨unknown, hreport⟩ := hcopied.report
  refine ⟨lines.map (ignored e.limits.unknown), unknown, ?_, ?_, fun g hg column t trigger rest => ?_⟩
  · have hsink : s.sink = sink.taking (lines.map (ignored e.limits.unknown)) := by
      rw [hcopied.sink, List.map_map]
      rfl
    have hreport : s.report =
        { linesRead := lines.length, linesWritten := lines.length
          passes := lines.countP fun l => carriesMacros l.toList
          unknownTriggers := unknown } := by
      rw [hreport]
      simp only [lines, List.length_map, List.countP_map, begin, Nat.zero_add]
      rfl
    rw [← hplan, follow_sourcePlan] at hfollow
    rw [run_closed, hfollow]
    obtain ⟨arena, current, memo, report, written⟩ := s
    obtain rfl : report = _ := hreport
    obtain rfl : written = _ := hsink
    rfl
  · exact forall₂_ignoredAs_iff.2 rfl
  · intro hcalls
    have hstart : (e.start q (.ofBytes bs) now sink).plan.Untriggered := by
      show (e.rules.sourcePlan (.ofBytes bs) >>= fun _ => Rules.finishPlan).Untriggered
      rw [hplan]
      exact Plan.untriggered_through (fun i => shows_ignoring) untriggered_finishPlan
    have hhere := (hg.untriggered hstart rfl).1
    rw [hcalls] at hhere
    exact Plan.not_untriggered_tokenPlan column t trigger rest hhere

/-- An engine with the shared triggers only. -/
def sharing (policy : UnknownPolicy) : Engine where
  registry := (Registry.empty "").registerAll Shared.triggers
  schema := .absent
  store t := .error (.templateNotFound t .notFound)
  limits := { unknown := policy }

/-- A plain line, one with two unknown tokens of which nothing is left but a carriage return, an
empty one, and one with macro syntax but without a token. The sink has room for just these. -/
theorem sharing_ignores :
    let bs := Text.encode "A\r\n&NOPE|x|$X()\r\r\n\n& | é"
    ∃ unknownTriggers, (sharing .remove).run plainRequest (.ofBytes bs) ⟨0⟩
      { limit := some (4, .notFound) } =
        (.ok { linesRead := 4, linesWritten := 4, passes := 2, unknownTriggers },
          { lines := #["A", "", "", "& | é"], flushes := 1, limit := some (4, .notFound) }) := by
  intro bs
  have hlines : (Source.ofBytes bs).lines =
      [⟨1, "A"⟩, ⟨2, "&NOPE|x|$X()\r"⟩, ⟨3, ""⟩, ⟨4, "& | é"⟩] := by decide +kernel
  have hnone : ∀ l ∈ (Source.ofBytes bs).lines, ∀ t ∈ tokenize l.text,
      (sharing .remove).registry.contains t.name = false := by
    rw [hlines]
    decide +kernel
  obtain ⟨written, unknown, hrun, hwritten, -⟩ := run_ignores (sharing .remove) plainRequest bs ⟨0⟩
    { limit := some (4, .notFound) } hnone fun n cause hlimit => by
      cases hlimit
      rw [hlines]
      decide
  obtain rfl := forall₂_ignoredAs_iff.1 hwritten
  have htexts : (Source.ofBytes bs).lines.map (·.text) =
      ["A", "&NOPE|x|$X()\r", "", "& | é"] := by
    rw [hlines]
    rfl
  have hleft : ["A", "&NOPE|x|$X()\r", "", "& | é"].map
      (ignored (sharing .remove).limits.unknown) = ["A", "", "", "& | é"] := by decide +kernel
  have hpasses : ["A", "&NOPE|x|$X()\r", "", "& | é"].countP
      (fun l => carriesMacros l.toList) = 2 := by decide +kernel
  rw [htexts, hleft, hpasses] at hrun
  exact ⟨unknown, hrun⟩

end Engine

end Stencil
