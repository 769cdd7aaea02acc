import Stencil.Proofs.Run.FixedPoint
import Stencil.Proofs.Run.Substituted

/-!
# Line replacement is exclusive

When a pass over a line meets a line-replacing token, what has been made of the line until then is
dropped. The tokens in front of it are taken up as in any pass, the token is resolved, and its value
is written in place of the line: nothing behind it is looked at, no further pass is made and no
runaway is noted. It does not matter in which pass the token turns up (`PassOver`).
-/

namespace Stencil

namespace Engine

variable {e : Engine} {sub : Sub}

/-! ## The passes over a line -/

/-- A pass is made over the text `mid` in the run `s`, when as many as `left` may be made from the
text `text` and the run `r` on: it is the first one, or one that follows a pass that resolved a token
and left macros. -/
inductive PassOver (e : Engine) (sub : Sub) :
    (left : Nat) → (text : List Char) → (r : Run) → (mid : List Char) → (s : Run) → Prop where
  | first {left : Nat} {text : List Char} {r : Run} (hcarries : carriesMacros text = true) :
      PassOver e sub (left + 1) text r text r
  | later {left n : Nat} {text next mid : List Char} {r t s : Run}
      (hcarries : carriesMacros text = true)
      (before : pass e sub text r = (.ok (.rewritten next (n + 1)), t))
      (rest : PassOver e sub left next t mid s) : PassOver e sub (left + 1) text r mid s

theorem PassOver.carries {left : Nat} {text mid : List Char} {r s : Run}
    (h : PassOver e sub left text r mid s) : carriesMacros text = true := by
  cases h <;> assumption

theorem PassOver.left_ne_zero {left : Nat} {text mid : List Char} {r s : Run}
    (h : PassOver e sub left text r mid s) : left ≠ 0 := by
  cases h <;> exact Nat.succ_ne_zero _

/-- The passes over a text go on from any pass that is made. -/
theorem PassOver.settle_eq {left : Nat} {text mid : List Char} {r s : Run}
    (h : PassOver e sub left text r mid s) (before : Bool) :
    ∃ rest after, settle e sub left text before r = settle e sub (rest + 1) mid after s := by
  induction h generalizing before with
  | first => exact ⟨_, before, rfl⟩
  | later hcarries hpass hrest ih =>
    obtain ⟨rest, after, hsettle⟩ := ih true
    refine ⟨rest, after, ?_⟩
    rw [settle, Effect.bind_eq, hpass]
    simp only [hrest.carries, Bool.not_true, Bool.false_eq_true, if_false, hrest.left_ne_zero]
    exact hsettle

/-! ## What the passes preserve -/

/-- A computation leaves what is observed of the run as it is. -/
def Preserves {α γ : Type} (f : Run → γ) (x : Gen α) : Prop := ∀ r, f (x r).2 = f r

section

variable {α β γ : Type} {f : Run → γ}

theorem preserves_pure (a : α) : Preserves f (pure a : Gen α) := fun _ => rfl

theorem preserves_bind {x : Gen α} {g : α → Gen β} (hx : Preserves f x)
    (hg : ∀ a, Preserves f (g a)) : Preserves f (x >>= g) := by
  intro r
  have hr := hx r
  rw [Effect.bind_eq]
  rcases hxr : x r with ⟨err | a, s⟩
  · rwa [hxr] at hr
  · rw [hxr] at hr
    exact (hg a s).trans hr

theorem preserves_mapM {g : β → Gen α} (hg : ∀ b, Preserves f (g b)) (bs : List β) :
    Preserves f (bs.mapM g) := by
  induction bs with
  | nil =>
    rw [List.mapM_nil]
    exact preserves_pure _
  | cons b bs ih =>
    rw [List.mapM_cons]
    exact preserves_bind (hg b) fun a => preserves_bind ih fun as => preserves_pure _

variable (htake : ∀ x, Preserves f (takeUp e sub x))

include htake

/-- Resolving a token is all that is done to take it up. -/
theorem resolveToken_preserves {t : Token} {trigger : Trigger}
    (hfound : e.registry.find? t.name = some trigger) (column : Nat) :
    Preserves f (resolveToken e sub column t trigger) := by
  intro r
  have hr := htake (column, t) r
  rw [takeUp_registered hfound, Effect.bind_eq] at hr
  rcases hresolve : resolveToken e sub column t trigger r with ⟨err | value, s⟩ <;>
    rw [hresolve] at hr <;> exact hr

theorem resolvePieces_preserves (column : Nat) (ps : List Piece) :
    Preserves f (resolvePieces e sub column ps) := by
  induction ps generalizing column with
  | nil => exact preserves_pure _
  | cons p ps ih =>
    cases p with
    | plain c => exact preserves_bind (ih _) fun o => preserves_pure _
    | token t =>
      rw [resolvePieces]
      split
      · next hunknown =>
        refine preserves_bind (fun r => ?_) fun _ => preserves_bind (ih _) fun o => preserves_pure _
        have hr := htake (column, t) r
        rwa [takeUp_unregistered hunknown, Effect.modify_bind] at hr
      · next trigger hfound =>
        refine preserves_bind (resolveToken_preserves htake hfound column) fun value => ?_
        split
        · exact preserves_pure _
        · exact preserves_bind (ih _) fun o => preserves_pure _

/-- The passes up to a further one do nothing but to count passes and to take up tokens. -/
theorem PassOver.preserves (hcount : ∀ r, f (counted r) = f r) {left : Nat}
    {text mid : List Char} {r s : Run} (h : PassOver e sub left text r mid s) : f s = f r := by
  induction h with
  | first => rfl
  | @later left n text next mid r t s hcarries hpass hrest ih =>
    have hr := resolvePieces_preserves htake 0 (pieces text) (counted r)
    rw [pass, Effect.modify_bind] at hpass
    rw [show resolvePieces e sub 0 (pieces text) (counted r) = _ from hpass] at hr
    exact ih.trans (hr.trans (hcount r))

end

/-! ## What is written -/

/-- The lines that a value gives in place of a line. -/
def replacementLines : Option String → List String
  | none => []
  | some v => if v.isEmpty then [] else valueLines v.toList

theorem emitSettled_replaced (value : Option String) :
    emitSettled (.replaced value) = writeLines (replacementLines value) := by
  cases value with
  | none => rfl
  | some v =>
    rw [emitSettled, replacementLines]
    split <;> rfl

/-- Writing lines changes the sink and the count of lines written, and nothing else. -/
theorem writeLines_state (lines : List String) (r : Run) : ∃ sink linesWritten,
    (writeLines lines r).2 = { r with sink, report := { r.report with linesWritten } } := by
  induction lines generalizing r with
  | nil => exact ⟨r.sink, r.report.linesWritten, rfl⟩
  | cons line lines ih =>
    rw [writeLines, Effect.bind_eq]
    cases hwrite : r.sink.write line with
    | error cause =>
      have hline : writeLine line r = (.error (r.unwritable cause), r) := by
        rw [writeLine, Effect.get_bind, hwrite]
        rfl
      rw [hline]
      exact ⟨r.sink, r.report.linesWritten, rfl⟩
    | ok sink =>
      have hline : writeLine line r = (.ok (), { r with
          sink, report := { r.report with linesWritten := r.report.linesWritten + 1 } }) := by
        rw [writeLine, Effect.get_bind, hwrite]
        rfl
      rw [hline]
      obtain ⟨sink', linesWritten, hrest⟩ := ih { r with
        sink, report := { r.report with linesWritten := r.report.linesWritten + 1 } }
      exact ⟨sink', linesWritten, hrest⟩

/-- When all lines have been written, they stand behind those that were there. -/
theorem writeLines_lines {lines : List String} {r s : Run}
    (h : writeLines lines r = (.ok (), s)) :
    s.sink.lines.toList = r.sink.lines.toList ++ lines := by
  induction lines generalizing r with
  | nil =>
    obtain ⟨-, rfl⟩ := Effect.pure_eq_ok_iff.1 h
    exact (List.append_nil _).symm
  | cons line lines ih =>
    obtain ⟨_, t, hline, hrest⟩ := Effect.bind_eq_ok_iff.1 h
    rw [ih hrest, writeLine_lines hline, List.append_assoc, List.singleton_append]

/-! ## Exclusive replacement -/

theorem replacing_cons_iff {p : Piece} {ps : List Piece} : Replacing e (p :: ps) ↔
    (∃ t, p = .token t ∧ ∃ trigger, e.registry.find? t.name = some trigger ∧
      trigger.replacesLine = true) ∨ Replacing e ps := by
  cases p with
  | plain c =>
    constructor
    · exact .inr
    · rintro (⟨t, ht, -⟩ | h)
      · cases ht
      · exact h
  | token t =>
    constructor
    · rintro ⟨u, hu, hreplaces⟩
      rcases List.mem_cons.1 hu with rfl | hu
      · exact .inl ⟨u, rfl, hreplaces⟩
      · exact .inr ⟨u, hu, hreplaces⟩
    · rintro (⟨u, hu, hreplaces⟩ | h)
      · cases hu
        exact ⟨t, List.mem_cons_self, hreplaces⟩
      · exact h.cons

theorem not_replacing_nil : ¬ Replacing e [] := by
  rintro ⟨t, ht, -⟩
  cases ht

/-- Among pieces with a line-replacing token there is a leftmost one. -/
theorem Replacing.leftmost {ps : List Piece} (h : Replacing e ps) :
    ∃ left t right trigger, ps = left ++ .token t :: right ∧ ¬ Replacing e left ∧
      e.registry.find? t.name = some trigger ∧ trigger.replacesLine = true := by
  induction ps with
  | nil => exact absurd h not_replacing_nil
  | cons p ps ih =>
    by_cases hfirst : ∃ t, p = .token t ∧ ∃ trigger, e.registry.find? t.name = some trigger ∧
        trigger.replacesLine = true
    · obtain ⟨t, rfl, trigger, hfound, hreplaces⟩ := hfirst
      exact ⟨[], t, ps, trigger, rfl, not_replacing_nil, hfound, hreplaces⟩
    · obtain ⟨left, t, right, trigger, rfl, hleft, hreplaces⟩ :=
        ih ((replacing_cons_iff.1 h).resolve_left hfirst)
      refine ⟨p :: left, t, right, trigger, rfl, fun hreplacing => ?_, hreplaces⟩
      exact (replacing_cons_iff.1 hreplacing).elim hfirst hleft

/-- Takes up the tokens of pieces, and then resolves a token behind them. -/
def takeUpTo (e : Engine) (sub : Sub) (left : List Piece) (t : Token) (trigger : Trigger) :
    Gen (Option String) := do
  let _ ← (columns 0 left).mapM (takeUp e sub)
  resolveToken e sub (columnBehind 0 left) t trigger

/-- A pass that meets a line-replacing token is over when the token has been resolved. -/
theorem pass_replacing {text : List Char} {left right : List Piece} {t : Token} {trigger : Trigger}
    (hpieces : pieces text = left ++ .token t :: right) (hleft : ¬ Replacing e left)
    (hfound : e.registry.find? t.name = some trigger) (hreplaces : trigger.replacesLine = true)
    (r : Run) : pass e sub text r =
      (takeUpTo e sub left t trigger >>= fun value => pure (.replaced value)) (counted r) := by
  have hpass := resolvePieces_append e sub 0 hleft (.token t :: right)
  simp only [resolvePieces, hfound, hreplaces, if_true, bind_assoc, pure_bind, Outcome.behind]
    at hpass
  rw [pass, Effect.modify_bind, hpieces, hpass]
  simp only [takeUpTo, bind_assoc]
  rfl

/-- So is the line, once the value of the token has been written. -/
theorem processLine_replacing {line : Line} {r s : Run} {text : List Char} {left right : List Piece}
    {t : Token} {trigger : Trigger}
    (hpass : PassOver e sub e.limits.passes line.text.toList r text s)
    (hpieces : pieces text = left ++ .token t :: right) (hleft : ¬ Replacing e left)
    (hfound : e.registry.find? t.name = some trigger) (hreplaces : trigger.replacesLine = true) :
    processLine e sub line r = (takeUpTo e sub left t trigger >>= fun value =>
      writeLines (replacementLines value)) (counted s) := by
  obtain ⟨rest, after, hsettle⟩ := hpass.settle_eq false
  rw [processLine, if_pos hpass.carries, Effect.bind_eq, hsettle, settle, Effect.bind_eq,
    pass_replacing hpieces hleft hfound hreplaces, Effect.bind_eq, Effect.bind_eq]
  rcases takeUpTo e sub left t trigger (counted s) with ⟨err | value, u⟩
  · rfl
  · exact congrFun (emitSettled_replaced value) u

/-- **Line replacement is exclusive.** Suppose that a pass over a line, be it the first or a later one,
is made over a text with line-replacing tokens, and take the leftmost. From the beginning of that
pass on, the tokens in front of it are taken up, in order, it is resolved, and its value is written,
and that is all: neither is a token behind it resolved, nor a further pass made or a runaway noted,
and no text that the line had is written. When something fails, so does the line, at once.

Whatever counting a pass and taking up a token leave alone, the whole line leaves alone up to what
is written of the value. So the line adds no entry for a runaway of its own; and with triggers that
write nothing themselves, what it writes is the value alone. -/
theorem line_replacement_exclusive (e : Engine) (sub : Sub) (line : Line) (r s : Run)
    (text : List Char) (hpass : PassOver e sub e.limits.passes line.text.toList r text s)
    (hreplacing : Replacing e (pieces text)) :
    ∃ left t right trigger, pieces text = left ++ .token t :: right ∧ ¬ Replacing e left ∧
      e.registry.find? t.name = some trigger ∧ trigger.replacesLine = true ∧
      processLine e sub line r = (takeUpTo e sub left t trigger >>= fun value =>
        writeLines (replacementLines value)) (counted s) ∧
      (∀ value u, ∃ sink linesWritten, (writeLines (replacementLines value) u).2 =
        { u with sink, report := { u.report with linesWritten } }) ∧
      ((∀ x, Preserves (·.report.runawayLines) (takeUp e sub x)) →
        (processLine e sub line r).2.report.runawayLines = r.report.runawayLines) ∧
      ((∀ x, Preserves (·.sink) (takeUp e sub x)) → ∀ w,
        processLine e sub line r = (.ok (), w) → ∃ value u,
          takeUpTo e sub left t trigger (counted s) = (.ok value, u) ∧
          w.sink.lines.toList = r.sink.lines.toList ++ replacementLines value) := by
  obtain ⟨left, t, right, trigger, hpieces, hleft, hfound, hreplaces⟩ := hreplacing.leftmost
  have hline := processLine_replacing hpass hpieces hleft hfound hreplaces
  have hpreserves {γ : Type} {f : Run → γ} (htake : ∀ x, Preserves f (takeUp e sub x)) :
      Preserves f (takeUpTo e sub left t trigger) :=
    preserves_bind (preserves_mapM htake _) fun _ => resolveToken_preserves htake hfound _
  refine ⟨left, t, right, trigger, hpieces, hleft, hfound, hreplaces, hline,
    fun value u => writeLines_state _ u, fun htake => ?_, fun htake w hw => ?_⟩
  · have hwrite : ∀ value, Preserves (·.report.runawayLines)
        (writeLines (replacementLines value)) := by
      intro value u
      obtain ⟨sink, linesWritten, hstate⟩ := writeLines_state (replacementLines value) u
      rw [hstate]
    rw [hline]
    exact (preserves_bind (hpreserves htake) hwrite (counted s)).trans
      (hpass.preserves htake fun _ => rfl)
  · rw [hline] at hw
    obtain ⟨value, u, hvalue, hwrite⟩ := Effect.bind_eq_ok_iff.1 hw
    refine ⟨value, u, hvalue, ?_⟩
    have hsink := hpreserves htake (counted s)
    rw [hvalue] at hsink
    have hbefore : s.sink = r.sink := hpass.preserves htake fun _ => rfl
    rw [writeLines_lines hwrite, hsink]
    show s.sink.lines.toList ++ _ = _
    rw [hbefore]

/-- An engine whose trigger `A` gives a line-replacing token between two tokens. -/
def surrounding : Engine where
  registry := (((Registry.empty "").register
    { name := "A", resolve := fun _ => .done (some "&B|&W|&B|") }).register
    { name := "B", resolve := fun _ => .done (some "b") }).register
    { name := "W", replacesLine := true, resolve := fun _ => .done (some "one\r\ntwo") }
  schema := .absent
  store t := .error (.templateNotFound t .notFound)
  limits := {}

/-- The token that replaces the line turns up in the second pass. Neither the text of the line nor the
value of the token in front of it is written. -/
theorem surrounding_exclusive :
    let sub := call surrounding 0
    let r := surrounding.begin plainRequest ⟨0⟩ {}
    let s := (pass surrounding sub "x&A|".toList r).2
    PassOver surrounding sub surrounding.limits.passes "x&A|".toList r "x&B|&W|&B|".toList s ∧
      Replacing surrounding (pieces "x&B|&W|&B|".toList) ∧
      (processLine surrounding sub ⟨1, "x&A|"⟩ r).2.sink.lines = #["one", "two"] ∧
      ∃ left t right trigger, pieces "x&B|&W|&B|".toList = left ++ .token t :: right ∧
        ¬ Replacing surrounding left ∧ surrounding.registry.find? t.name = some trigger ∧
        trigger.replacesLine = true ∧
        processLine surrounding sub ⟨1, "x&A|"⟩ r =
          (takeUpTo surrounding sub left t trigger >>= fun value =>
            writeLines (replacementLines value)) (counted s) := by
  intro sub r s
  have hfirst : pass surrounding sub "x&A|".toList r =
      (.ok (.rewritten "x&B|&W|&B|".toList 1), s) := Effect.eq_ok_of_fst (by decide +kernel)
  have hpass : PassOver surrounding sub surrounding.limits.passes "x&A|".toList r
      "x&B|&W|&B|".toList s :=
    .later (by decide +kernel) hfirst (.first (by decide +kernel))
  have hreplacing : Replacing surrounding (pieces "x&B|&W|&B|".toList) := by decide +kernel
  obtain ⟨left, t, right, trigger, hpieces, hleft, hfound, hreplaces, hline, -⟩ :=
    line_replacement_exclusive surrounding sub ⟨1, "x&A|"⟩ r s "x&B|&W|&B|".toList hpass hreplacing
  exact ⟨hpass, hreplacing, by decide +kernel, left, t, right, trigger, hpieces, hleft, hfound,
    hreplaces, hline⟩

end Engine

end Stencil
