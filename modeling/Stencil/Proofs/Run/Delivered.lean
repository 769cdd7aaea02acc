import Stencil.Proofs.Run.Settle
import Stencil.Proofs.Run.Stages

/-!
# The lines that a template still has to deliver

A plan does not say in so many words how far its template has been read. `Plan.Reads` says it: from
one cursor to another the plan begins the lines between them, one after the other, and makes passes
over those that carry macros, at least one each, and over no others. What the triggers do in between
moves no cursor, for a sub-template is read by a plan of its own. `Rules.reads_source` says that the
plan of a template reads the lines of that template.
-/

namespace Stencil

/-- How it stands with the line that was delivered last. -/
inductive Standing where
  /-- There is none, or it carries no macros. -/
  | idle
  /-- It carries macros, and no pass has been made over it. -/
  | owed
  /-- A pass has been made over it. -/
  | passing
deriving DecidableEq, Repr

/-- How far a template has been read. -/
structure Cursor where
  standing : Standing
  /-- The lines still to be delivered. -/
  left : List Line
deriving DecidableEq, Repr

/-- Nothing is left to be delivered, or to be done to the last line. -/
structure Cursor.Finished (c : Cursor) : Prop where
  standing : c.standing ≠ .owed
  left : c.left = []

/-- How it stands with a line when it is delivered. -/
def Line.delivered (l : Line) : Standing :=
  if carriesMacros l.text.toList then .owed else .idle

/-- How it stands with a line when it has been processed. -/
def Line.processed (l : Line) : Standing :=
  if carriesMacros l.text.toList then .passing else .idle

/-- The instruction moves the cursor `c` to `d`. A line begins when the line before it has had its
pass; a pass begins over a line with macros. -/
def Instruction.Moves (c : Cursor) : Instruction → Cursor → Prop
  | beginLine number, d => c.standing ≠ .owed ∧
    ∃ l, l.number = number ∧ c.left = l :: d.left ∧ d.standing = l.delivered
  | beginPass, d => c.standing ≠ .idle ∧ d = { c with standing := .passing }
  | _, d => d = c

namespace Plan

variable {α β : Type} {c d k : Cursor}

/-- Unless it fails, the plan comes from the cursor `c` to the cursor `d`. -/
def Reads (c : Cursor) : Plan α → Cursor → Prop
  | done _, d => d = c
  | fail _, _ => True
  | look k, d => ∀ v, (k v).Reads c d
  | act i p, d => ∃ m, i.Moves c m ∧ p.Reads m d
  | fields _ k, d => ∀ fs, (k fs).Reads c d
  | call _ _ _ p, d => p.Reads c d

theorem Reads.bind {p : Plan α} {f : α → Plan β} (hp : p.Reads c d) (hf : ∀ v, (f v).Reads d k) :
    (p >>= f).Reads c k := by
  show (p.bind f).Reads c k
  induction p generalizing c with
  | done v =>
    cases hp
    exact hf v
  | fail err => trivial
  | look q ih | fields b q ih => exact fun v => ih v (hp v)
  | act i p ih =>
    obtain ⟨m, hmoves, hp⟩ := hp
    exact ⟨m, hmoves, ih hp⟩
  | call t m s p ih => exact ih hp

end Plan

/-- Triggers read nothing of the template in which they stand. -/
theorem Action.reads_plan {α : Type} (a : Action α) (c : Cursor) : a.plan.Reads c c := by
  induction a with
  | done v => rfl
  | fail m => trivial
  | context k ih | ancestry k ih | live k ih | limits k ih | report k ih | tables k ih =>
    exact fun v => ih _
  | fields b k ih => exact fun fs => ih fs
  | change d k ih => exact ⟨c, rfl, ih⟩
  | write l k ih => exact ⟨c, rfl, ih⟩
  | call t m s k ih => exact ih

namespace Rules

open Engine (Settled)
open Plan (Reads)

variable {u : Rules} {c : Cursor}

theorem reads_token (column : Nat) (t : Token) (trigger : Trigger) (c : Cursor) :
    (tokenPlan column t trigger).Reads c c := by
  refine ⟨c, rfl, ?_⟩
  have hvalue := (trigger.resolve (t.paramsUpTo trigger.maxParams)).reads_plan c
  exact hvalue.bind fun _ => ⟨c, rfl, rfl⟩

theorem reads_pieces (u : Rules) (column : Nat) (ps : List Piece) (c : Cursor) :
    (u.piecesPlan column ps).Reads c c := by
  induction ps generalizing column with
  | nil => rfl
  | cons p ps ih =>
    cases p with
    | plain ch => exact (ih _).bind fun _ => rfl
    | token t =>
      rw [piecesPlan]
      split
      · exact ⟨c, rfl, (ih _).bind fun _ => rfl⟩
      · refine (reads_token column t _ c).bind fun value => ?_
        split
        · rfl
        · exact (ih _).bind fun _ => rfl

/-- A pass begins over a line with macros. -/
theorem reads_pass (text : List Char) (hc : c.standing ≠ .idle) :
    (u.passPlan text).Reads c { c with standing := .passing } :=
  ⟨_, ⟨hc, rfl⟩, reads_pieces u 0 _ _⟩

/-- The passes after the first one, -/
theorem reads_settle (left : Nat) (text : List Char) (resolvedAny : Bool)
    (hc : c.standing = .passing) : (u.settlePlan left text resolvedAny).Reads c c := by
  have hsame : ({ c with standing := .passing } : Cursor) = c := by rw [← hc]
  induction left generalizing text resolvedAny with
  | zero => rfl
  | succ left ih =>
    have hpass := reads_pass (u := u) text (c := c) (by rw [hc]; exact nofun)
    rw [hsame] at hpass
    refine hpass.bind fun o => ?_
    split
    · rfl
    · rfl
    · split
      · rfl
      · split
        · split
          · exact ⟨c, rfl, rfl⟩
          · rfl
        · exact ih _ _

/-- and the first one. -/
theorem reads_settle_succ (left : Nat) (text : List Char) (resolvedAny : Bool)
    (hc : c.standing ≠ .idle) :
    (u.settlePlan (left + 1) text resolvedAny).Reads c { c with standing := .passing } := by
  refine (reads_pass text hc).bind fun o => ?_
  split
  · rfl
  · rfl
  · split
    · rfl
    · split
      · split
        · exact ⟨_, rfl, rfl⟩
        · rfl
      · exact reads_settle _ _ _ rfl

theorem reads_write (ls : List String) (c : Cursor) : (writePlan ls).Reads c c := by
  induction ls with
  | nil => rfl
  | cons l ls ih => exact ⟨c, rfl, ih⟩

theorem reads_emit (o : Settled) (c : Cursor) : (emitPlan o).Reads c c := by
  unfold emitPlan
  split
  · rfl
  · split
    · rfl
    · exact reads_write _ c
  · split
    · rfl
    · exact reads_write _ c

/-- Passes are made over a line just if it carries macros. -/
theorem reads_line (hpasses : 0 < u.passes) (l : Line) (ls : List Line) :
    (u.linePlan l).Reads ⟨l.delivered, ls⟩ ⟨l.processed, ls⟩ := by
  rw [linePlan, Line.delivered, Line.processed]
  cases carriesMacros l.text.toList with
  | false => exact ⟨_, rfl, rfl⟩
  | true =>
    obtain ⟨left, hleft⟩ : ∃ left, u.passes = left + 1 := ⟨u.passes - 1, by omega⟩
    rw [hleft]
    have howed : Standing.owed ≠ .idle := by decide
    exact (reads_settle_succ (c := ⟨.owed, ls⟩) left _ false howed).bind fun o => reads_emit o _

theorem reads_lines (hpasses : 0 < u.passes) {st : Standing} (hst : st ≠ .owed) (ls : List Line) :
    ∃ st', st' ≠ .owed ∧ (u.linesPlan ls).Reads ⟨st, ls⟩ ⟨st', []⟩ := by
  induction ls generalizing st with
  | nil => exact ⟨st, hst, rfl⟩
  | cons l ls ih =>
    have hprocessed : l.processed ≠ .owed := by
      rw [Line.processed]
      split <;> exact nofun
    obtain ⟨st', hst', hls⟩ := ih hprocessed
    exact ⟨st', hst', _, ⟨hst, l, rfl, rfl, rfl⟩, (reads_line hpasses l ls).bind fun _ => hls⟩

/-- The plan of a template reads the lines of the template. -/
theorem reads_source (hpasses : 0 < u.passes) (s : Source) :
    ∃ d : Cursor, d.Finished ∧ (u.sourcePlan s).Reads ⟨.idle, s.lines⟩ d := by
  have hidle : Standing.idle ≠ .owed := nofun
  obtain ⟨st, hst, hlines⟩ := reads_lines hpasses hidle s.lines
  refine ⟨⟨st, []⟩, ⟨hst, rfl⟩, hlines.bind fun _ => ?_⟩
  cases s.failure with
  | none => rfl
  | some cause => trivial

/-- The end of a whole run reads nothing more. -/
theorem reads_session (hpasses : 0 < u.passes) (s : Source) :
    ∃ d : Cursor, d.Finished ∧ (u.sessionPlan s).Reads ⟨.idle, s.lines⟩ d := by
  obtain ⟨d, hd, hsource⟩ := reads_source hpasses s
  refine ⟨d, hd, hsource.bind fun _ v => ?_⟩
  show (if v.context.isMain then Plan.perform .flush else pure () : Plan Unit).Reads d d
  split
  · exact ⟨d, rfl, rfl⟩
  · rfl

end Rules

/-- An engine makes at least one pass over a line with macros. -/
theorem Engine.passes_pos (e : Engine) : 0 < e.rules.passes := by
  obtain ⟨left, hleft⟩ := passes_eq_succ e.limits
  exact Nat.lt_of_lt_of_eq (Nat.succ_pos left) hleft.symm

end Stencil
