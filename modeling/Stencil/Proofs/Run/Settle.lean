import Stencil.Proofs.Run.Frame
import Stencil.Proofs.Token.Grammar

/-!
# How a line settles

A line is rewritten in passes. `Passes` records them, each with the number of tokens it resolved.
A pass that resolves nothing finds no token with a trigger (`pass_none`), and under the policy that
keeps unknown tokens it changes nothing. `settle_ends` says how the passes end under that policy:
with such a text, or with all passes used up and one entry for a runaway line.
-/

namespace Stencil

/-- A note of an unknown token changes no other note. -/
theorem Report.noteUnknown_eq (p : Report) (u : Unresolved) :
    p.noteUnknown u = { p with unknownTriggers := (p.noteUnknown u).unknownTriggers } := by
  unfold noteUnknown
  split <;> rfl

/-- The run with other entries for unknown tokens, and another count of passes. -/
def Run.noting (r : Run) (passes : Nat) (unknown : List Unresolved) : Run :=
  { r with report := { r.report with passes, unknownTriggers := unknown } }

namespace Engine

/-! ## Texts without a registered token -/

/-- No token of the text has a trigger. -/
def Exhausted (e : Engine) (text : List Char) : Prop :=
  ∀ t ∈ tokenize (String.ofList text), e.registry.contains t.name = false

/-- The check made at the last pass. -/
theorem resolvable_eq_false_iff {e : Engine} {text : List Char} :
    e.resolvable text = false ↔ Exhausted e text := by
  rw [resolvable, List.any_eq_false, Exhausted, tokenize, String.toList_ofList]
  simp only [Bool.not_eq_true]

/-- A text without macros has no token at all. -/
theorem exhausted_of_not_carriesMacros {e : Engine} {text : List Char}
    (h : carriesMacros text = false) : Exhausted e text := by
  intro t ht
  rw [tokenize, String.toList_ofList, pieces, if_neg (by simp [h]), filterMap_plain] at ht
  cases ht

/-! ## Passes -/

/-- The passes made over a text in a run, with the number of tokens resolved in each, the text they
end with and the run that they leave. -/
inductive Passes (e : Engine) (sub : Sub) :
    List Char → Run → List Nat → List Char → Run → Prop where
  | nil {text : List Char} {r : Run} : Passes e sub text r [] text r
  | cons {text mid final : List Char} {n : Nat} {counts : List Nat} {r s t : Run}
      (first : pass e sub text r = (.ok (.rewritten mid n), s))
      (rest : Passes e sub mid s counts final t) : Passes e sub text r (n :: counts) final t

section

variable {e : Engine} {sub : Sub} {room : Nat}

theorem kept_eq_rewritten_iff {cs mid : List Char} {n : Nat} {o : Outcome} :
    o.kept cs = .rewritten mid n ↔ ∃ text, o = .rewritten text n ∧ mid = cs ++ text := by
  cases o with
  | replaced v => simp [Outcome.kept]
  | rewritten text m =>
    simp only [Outcome.kept, Outcome.rewritten.injEq]
    constructor
    · rintro ⟨rfl, rfl⟩
      exact ⟨text, ⟨rfl, rfl⟩, rfl⟩
    · rintro ⟨text, ⟨rfl, rfl⟩, rfl⟩
      exact ⟨rfl, rfl⟩

/-- What a pass leaves of a piece that it does not resolve. -/
def leaves (e : Engine) : Piece → List Char
  | .plain c => [c]
  | .token t => e.unknownText t

/-- What a pass leaves of a text of which it resolves nothing. -/
def remains (e : Engine) (text : List Char) : List Char := (pieces text).flatMap e.leaves

/-- The policy that keeps unknown tokens leaves all of it. -/
theorem remains_keep (hkeep : e.limits.unknown = .keep) (text : List Char) :
    e.remains text = text := by
  have hpiece : e.leaves = Piece.source := by
    funext p
    cases p with
    | plain c => rfl
    | token t => simp [leaves, unknownText, hkeep, Piece.source]
  rw [remains, hpiece, List.flatMap_def, flatten_pieces]

/-- Where no piece is resolved, no token has a trigger, and each piece is left as the policy says. -/
theorem resolvePieces_none {column : Nat} {ps : List Piece} {mid : List Char} {r s : Run}
    (h : resolvePieces e sub column ps r = (.ok (.rewritten mid 0), s)) :
    mid = ps.flatMap e.leaves ∧
      ∀ t ∈ ps.filterMap Piece.token?, e.registry.contains t.name = false := by
  induction ps generalizing column mid r s with
  | nil =>
    cases h
    exact ⟨rfl, nofun⟩
  | cons p ps ih =>
    cases p with
    | plain c =>
      obtain ⟨o, t, hrest, hkept⟩ := Effect.bind_eq_ok_iff.1 h
      obtain ⟨text, rfl, rfl⟩ := kept_eq_rewritten_iff.1 (Effect.pure_eq_ok_iff.1 hkept).1
      obtain ⟨rfl, hnone⟩ := ih hrest
      exact ⟨rfl, hnone⟩
    | token u =>
      cases hfind : e.registry.find? u.name with
      | none =>
        simp only [resolvePieces, hfind, Effect.modify_bind] at h
        obtain ⟨o, t, hrest, hkept⟩ := Effect.bind_eq_ok_iff.1 h
        obtain ⟨text, rfl, rfl⟩ := kept_eq_rewritten_iff.1 (Effect.pure_eq_ok_iff.1 hkept).1
        obtain ⟨rfl, hnone⟩ := ih hrest
        refine ⟨rfl, fun t ht => ?_⟩
        rcases List.mem_cons.1 ht with rfl | ht
        · rw [Registry.contains, hfind]
          rfl
        · exact hnone t ht
      | some trigger =>
        -- a resolved token is counted
        simp only [resolvePieces, hfind] at h
        obtain ⟨value, t, -, h⟩ := Effect.bind_eq_ok_iff.1 h
        split at h
        · cases h
        · obtain ⟨o, t, -, hres⟩ := Effect.bind_eq_ok_iff.1 h
          have hres := (Effect.pure_eq_ok_iff.1 hres).1
          cases o <;> simp [Outcome.resolved] at hres

/-- A pass over a text that resolves nothing. -/
theorem pass_none {text mid : List Char} {r s : Run}
    (h : pass e sub text r = (.ok (.rewritten mid 0), s)) :
    mid = e.remains text ∧ Exhausted e text := by
  rw [pass, Effect.modify_bind] at h
  obtain ⟨rfl, hnone⟩ := resolvePieces_none h
  refine ⟨rfl, fun t ht => hnone t ?_⟩
  rwa [tokenize, String.toList_ofList] at ht

/-- With unknown tokens kept, such a pass leaves the text. -/
theorem pass_none_keep (hkeep : e.limits.unknown = .keep) {text mid : List Char} {r s : Run}
    (h : pass e sub text r = (.ok (.rewritten mid 0), s)) : mid = text ∧ Exhausted e text := by
  obtain ⟨rfl, hnone⟩ := pass_none h
  exact ⟨remains_keep hkeep text, hnone⟩

/-- Over pieces without a registered token nothing is done but to note the tokens. -/
theorem resolvePieces_unregistered (sub : Sub) (column : Nat) {ps : List Piece} (r : Run)
    (hnone : ∀ u ∈ ps.filterMap Piece.token?, e.registry.contains u.name = false) :
    ∃ unknown, resolvePieces e sub column ps r =
      (.ok (.rewritten (ps.flatMap e.leaves) 0), r.noting r.report.passes unknown) := by
  induction ps generalizing column r with
  | nil => exact ⟨r.report.unknownTriggers, rfl⟩
  | cons p ps ih =>
    cases p with
    | plain c =>
      obtain ⟨unknown, hrest⟩ := ih (advance column [c]) r hnone
      refine ⟨unknown, ?_⟩
      rw [resolvePieces, Effect.bind_eq, hrest]
      rfl
    | token u =>
      have hunknown : e.registry.find? u.name = none := by
        simpa [Registry.contains] using hnone u List.mem_cons_self
      obtain ⟨unknown, hrest⟩ := ih (advance column u.source)
        (r.mapReport (·.noteUnknown (r.unresolved u.source)))
        fun v hv => hnone v (List.mem_cons_of_mem u hv)
      refine ⟨unknown, ?_⟩
      rw [resolvePieces, hunknown]
      simp only [Effect.modify_bind]
      rw [Effect.bind_eq, hrest, Run.mapReport, Report.noteUnknown_eq]
      rfl

/-- So a text of which all remains settles as it is when no token of it has a trigger, however many
passes are left. -/
theorem settle_remaining (sub : Sub) {text : List Char} (hnone : Exhausted e text)
    (hall : e.remains text = text) (left : Nat) (resolvedAny : Bool) (r : Run) :
    ∃ passes unknown, settle e sub left text resolvedAny r =
      (.ok (.text text resolvedAny), r.noting passes unknown) := by
  cases left with
  | zero => exact ⟨r.report.passes, r.report.unknownTriggers, rfl⟩
  | succ left =>
    rw [Exhausted, tokenize, String.toList_ofList] at hnone
    obtain ⟨unknown, hpieces⟩ := resolvePieces_unregistered sub 0
      (r.mapReport fun p => { p with passes := p.passes + 1 }) hnone
    refine ⟨r.report.passes + 1, unknown, ?_⟩
    rw [settle, Effect.bind_eq, pass, Effect.modify_bind, hpieces, ← remains, hall]
    rfl

/-- With unknown tokens kept, all remains of any text. -/
theorem settle_exhausted (sub : Sub) (hkeep : e.limits.unknown = .keep) {text : List Char}
    (hnone : Exhausted e text) (left : Nat) (resolvedAny : Bool) (r : Run) :
    ∃ passes unknown, settle e sub left text resolvedAny r =
      (.ok (.text text resolvedAny), r.noting passes unknown) :=
  settle_remaining sub hnone (remains_keep hkeep text) left resolvedAny r

/-- What is done on a line leaves the template and the line to which entries belong. -/
theorem Frame.unresolved {r s : Run} (h : Frame .line r s) (text : List Char) :
    s.unresolved text = r.unresolved text := by
  rw [Run.unresolved, h.sameCall.template, h.line rfl, Run.unresolved]

/-- So does a pass. -/
theorem pass_unresolved (hsub : SubDoes e room sub) {text final : List Char} {r s : Run}
    {o : Except Error Outcome} (h : pass e sub text r = (o, s)) :
    s.unresolved final = r.unresolved final := by
  have hframe := (pass_does hsub text r).frame
  rw [h] at hframe
  exact hframe.unresolved final

/-! ## The end of the passes -/

/-- A line may always take one pass. -/
theorem passes_eq_succ (l : Limits) : ∃ left, l.passes = left + 1 :=
  ⟨l.passes - 1, by unfold Limits.passes; omega⟩

/-- How the passes over a text come to an end, or go on: nothing was resolved, no macro is left, the
passes are used up, or there are further ones. -/
theorem settle_succ_eq_text {left : Nat} {text final : List Char} {before after : Bool} {r t : Run}
    (h : settle e sub (left + 1) text before r = (.ok (.text final after), t)) :
    ∃ mid n s, pass e sub text r = (.ok (.rewritten mid n), s) ∧
      ((n = 0 ∧ mid = final ∧ before = after ∧ s = t) ∨
      (0 < n ∧ carriesMacros mid = false ∧ mid = final ∧ after = true ∧ s = t) ∨
      (0 < n ∧ left = 0 ∧ mid = final ∧ after = true ∧
        t = if e.resolvable mid then s.mapReport (·.noteRunaway (s.unresolved mid)) else s) ∨
      (0 < n ∧ 0 < left ∧ settle e sub left mid true s = (.ok (.text final after), t))) := by
  rw [settle] at h
  obtain ⟨o, s, hpass, h⟩ := Effect.bind_eq_ok_iff.1 h
  cases o with
  | replaced v => cases h
  | rewritten mid n =>
    refine ⟨mid, n, s, hpass, ?_⟩
    cases n with
    | zero =>
      cases h
      exact .inl ⟨rfl, rfl, rfl, rfl⟩
    | succ n =>
      cases hmid : carriesMacros mid with
      | false =>
        simp only [hmid] at h
        cases h
        exact .inr (.inl ⟨Nat.succ_pos n, rfl, rfl, rfl, rfl⟩)
      | true =>
        cases left with
        | succ left =>
          simp only [hmid] at h
          exact .inr (.inr (.inr ⟨Nat.succ_pos n, Nat.succ_pos left, h⟩))
        | zero =>
          cases hres : e.resolvable mid with
          | false =>
            simp only [hmid, hres] at h
            cases h
            exact .inr (.inr (.inl ⟨Nat.succ_pos n, rfl, rfl, rfl, by rfl⟩))
          | true =>
            simp only [hmid, hres, if_true] at h
            cases h
            exact .inr (.inr (.inl ⟨Nat.succ_pos n, rfl, rfl, rfl, by rfl⟩))

/-- The passes over a line ended with a text in which no token has a trigger, and nothing was noted
of the line. -/
def EndsSettled (e : Engine) (final : List Char) (s t : Run) : Prop :=
  Exhausted e final ∧ t = s

/-- The passes over a line, `allowed` in number, were used up, each resolving a token, while some
token of the text still has a trigger, and the line was noted as a runaway. -/
def EndsRunaway (e : Engine) (allowed : Nat) (entry : Unresolved) (counts : List Nat)
    (final : List Char) (s t : Run) : Prop :=
  counts.length = allowed ∧ (∀ n ∈ counts, 0 < n) ∧
    (∃ u ∈ tokenize (String.ofList final), e.registry.contains u.name = true) ∧
    t = s.mapReport (·.noteRunaway entry)

/-- How the passes over a text end, of which at least one is allowed. -/
theorem settle_ends (hkeep : e.limits.unknown = .keep) (hsub : SubDoes e room sub) {left : Nat}
    {text final : List Char} {before after : Bool} {r t : Run}
    (h : settle e sub (left + 1) text before r = (.ok (.text final after), t)) :
    ∃ counts s, Passes e sub text r counts final s ∧
      1 ≤ counts.length ∧ counts.length ≤ left + 1 ∧
      (after = true ↔ before = true ∨ ∃ n ∈ counts, 0 < n) ∧
      (EndsSettled e final s t ∨
        EndsRunaway e (left + 1) (r.unresolved final) counts final s t) := by
  induction left using Nat.strongRecOn generalizing text before r with
  | ind left ih =>
    obtain ⟨mid, n, s, hpass, ⟨rfl, rfl, rfl, rfl⟩ | ⟨hn, hmid, rfl, rfl, rfl⟩ |
      ⟨hn, rfl, rfl, rfl, rfl⟩ | ⟨hn, hleft, hrest⟩⟩ := settle_succ_eq_text h
    · -- nothing was resolved, so nothing can be
      obtain ⟨rfl, hnone⟩ := pass_none_keep hkeep hpass
      exact ⟨[0], s, .cons hpass .nil, Nat.le_refl 1, by simp, by simp, .inl ⟨hnone, rfl⟩⟩
    · exact ⟨[n], s, .cons hpass .nil, Nat.le_refl 1, by simp, by simp [hn],
        .inl ⟨exhausted_of_not_carriesMacros hmid, rfl⟩⟩
    · refine ⟨[n], s, .cons hpass .nil, Nat.le_refl 1, by simp, by simp [hn], ?_⟩
      cases hres : e.resolvable mid with
      | false => exact .inl ⟨resolvable_eq_false_iff.1 hres, rfl⟩
      | true =>
        refine .inr ⟨rfl, by simp [hn], ?_, ?_⟩
        · obtain ⟨u, hu, hreg⟩ := List.any_eq_true.1 hres
          exact ⟨u, by rwa [tokenize, String.toList_ofList], hreg⟩
        · rw [if_pos rfl, pass_unresolved hsub hpass]
    · obtain ⟨left, rfl⟩ : ∃ left', left = left' + 1 := ⟨left - 1, by omega⟩
      obtain ⟨counts, s', hpasses, hone, hle, hafter, hend⟩ := ih left (by omega) hrest
      refine ⟨n :: counts, s', .cons hpass hpasses, by simp, by simpa using hle, ?_, ?_⟩
      · simp [hafter, hn]
      · rw [pass_unresolved hsub hpass] at hend
        obtain hsettled | ⟨hlength, hall, hmore, ht⟩ := hend
        · exact .inl hsettled
        · exact .inr ⟨by simp [hlength], by simpa [hn] using hall, hmore, ht⟩

/-! ## Lines -/

/-- What a line has become is written as it is, unless it is empty and some token was resolved. -/
theorem emitSettled_text (final : List Char) (resolvedAny : Bool) :
    emitSettled (.text final resolvedAny) =
      if final = [] ∧ resolvedAny = true then pure () else emit final := by
  simp [emitSettled]

/-- How a line with macros ends that was begun in the run `r` and leaves the run `r'`. Its passes
are as many as allowed at most, and they end settled or as a runaway, not both. Its final text is
written once, and not at all when it is empty and some pass resolved a token. -/
def LineEnds (e : Engine) (room : Nat) (line : Line) (r r' : Run) : Prop :=
  ∃ counts final s t, Passes e (call e room) line.text.toList r counts final s ∧
    1 ≤ counts.length ∧ counts.length ≤ max 1 e.limits.maxIterations ∧
    (EndsSettled e final s t ∨ EndsRunaway e (max 1 e.limits.maxIterations)
      ⟨r.context.template, line.number, String.ofList final⟩ counts final s t) ∧
    ¬ (EndsSettled e final s t ∧ EndsRunaway e (max 1 e.limits.maxIterations)
      ⟨r.context.template, line.number, String.ofList final⟩ counts final s t) ∧
    if final = [] ∧ ∃ n ∈ counts, 0 < n then r' = t else emit final t = (.ok (), r')

/-- **A line settles or runs away.** Under the policy that keeps unknown tokens, the passes over a
line with macros end with a text in which no token has a trigger, or they are used up and the line
is noted as a runaway, unless the line fails or a line-replacing trigger ends it. The run shows the
line, as it does wherever a line is begun (`Reaches.beginLine_line`). -/
theorem processLine_settles (e : Engine) (room : Nat) (line : Line) (r r' : Run)
    (hkeep : e.limits.unknown = .keep)
    (hcarries : carriesMacros line.text.toList = true)
    (hline : r.context.line = line.number)
    (hdone : processLine e (call e room) line r = (.ok (), r'))
    (hlast : ∀ v t, settle e (call e room) e.limits.passes line.text.toList false r ≠
      (.ok (.replaced v), t)) :
    LineEnds e room line r r' := by
  obtain ⟨left, hleft⟩ : ∃ left, e.limits.passes = left + 1 :=
    ⟨e.limits.passes - 1, by unfold Limits.passes; omega⟩
  have hmax : max 1 e.limits.maxIterations = left + 1 := by
    rw [← hleft, Limits.passes, Nat.max_comm]
  rw [processLine, if_pos hcarries] at hdone
  obtain ⟨o, t, hsettle, hemit⟩ := Effect.bind_eq_ok_iff.1 hdone
  cases o with
  | replaced v => exact absurd hsettle (hlast v t)
  | text final resolvedAny =>
    rw [hleft] at hsettle
    obtain ⟨counts, s, hpasses, hone, hle, hany, hend⟩ :=
      settle_ends hkeep (call_does e room) hsettle
    rw [Run.unresolved, hline] at hend
    rw [LineEnds, hmax]
    refine ⟨counts, final, s, t, hpasses, hone, hle, hend, ?_, ?_⟩
    · rintro ⟨⟨hnone, -⟩, -, -, ⟨u, hu, hreg⟩, -⟩
      rw [hnone u hu] at hreg
      cases hreg
    · simp only [Bool.false_eq_true, false_or] at hany
      rw [emitSettled_text] at hemit
      split at hemit
      · next hempty =>
        rw [if_pos ⟨hempty.1, hany.1 hempty.2⟩]
        cases hemit
        rfl
      · next hempty =>
        rw [if_neg fun h => hempty ⟨h.1, hany.2 h.2⟩]
        exact hemit

/-- An engine with one trigger, which stands for a call of itself, and one pass for a line. -/
def reemitting : Engine where
  registry := (Registry.empty "").register
    { name := "A", resolve := fun _ => .done (some "&A|") }
  schema := .absent
  store t := .error (.templateNotFound t .notFound)
  limits := { maxIterations := 1 }

/-- A run of `reemitting` at the beginning of its first line. -/
def reemittingRun : Run :=
  (reemitting.begin { template := "t", output := "o", insuranceLine := "", processType := "" }
    ⟨0⟩ {}).mapContext fun c => { c with line := 1 }

/-- A call that stands for itself runs away. -/
theorem reemitting_lineEnds :
    LineEnds reemitting 0 ⟨1, "&A|"⟩ reemittingRun
      (processLine reemitting (call reemitting 0) ⟨1, "&A|"⟩ reemittingRun).2 := by
  have hdone :
      (processLine reemitting (call reemitting 0) ⟨1, "&A|"⟩ reemittingRun).1 = .ok () :=
    Effect.eq_ok_of_toOption (by decide +kernel)
  have hsettle : (settle reemitting (call reemitting 0) reemitting.limits.passes "&A|".toList false
      reemittingRun).1 = .ok (.text "&A|".toList true) :=
    Effect.eq_ok_of_toOption (by decide +kernel)
  refine processLine_settles reemitting 0 ⟨1, "&A|"⟩ reemittingRun _ rfl (by decide) rfl
    (Prod.ext hdone rfl) fun v t h => ?_
  rw [h] at hsettle
  cases hsettle

end

end Engine

end Stencil
