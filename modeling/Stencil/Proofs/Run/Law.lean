import Stencil.Proofs.Run.Plan

/-!
# Laws of plans

The plans of templates are put together in one way, whatever is to be shown of them. A `Law` is a
property of plans with as much as is needed to follow this construction: it holds of the parts and
passes from parts to the whole. `Law.source` says that it then holds of the plan of every template.
Beside the plan, a law has the number of passes that are allowed before it on the current line and
that are left after it; a law for which passes are of no account leaves them aside.
-/

namespace Stencil

/-- Whether the instruction flushes the output. -/
def Instruction.flushes : Instruction → Bool
  | .flush => true
  | _ => false

/-- Whether the instruction is one that only triggers give. -/
def Instruction.changes : Instruction → Bool
  | .change _ => true
  | _ => false

/-- With `before` passes allowed, the instruction may be followed and leaves `after`. -/
def Instruction.Spends (cap before after : Nat) : Instruction → Prop
  | .beginLine _ => after = cap
  | .beginPass => before = after + 1
  | _ => after = before

namespace Rules

/-- A property of plans, with the passes allowed before and after, that follows their construction
from the plans of triggers and from instructions. -/
structure Law (u : Rules) (H : (α : Type) → Plan α → (before after : Nat) → Prop) : Prop where
  done {α : Type} (v : α) (n : Nat) : H α (pure v) n n
  fail {α : Type} (err : Error) (before after : Nat) : H α (.fail err) before after
  perform {i : Instruction} {before after : Nat} (hi : i.flushes = false)
    (hchanges : i.changes = false) (hspends : i.Spends u.passes before after) :
    H Unit (.perform i) before after
  action {name : String} {t : Trigger} (found : u.find? name = some t) (ps : List String)
    (n : Nat) : H (Option String) (t.resolve ps).plan n n
  bind {α β : Type} {p : Plan α} {f : α → Plan β} {before mid after : Nat}
    (first : H α p before mid) (rest : ∀ v, H β (f v) mid after) : H β (p >>= f) before after
  mono {α : Type} {p : Plan α} {before more after : Nat} (h : H α p before after)
    (hmore : before ≤ more) : H α p more after

namespace Law

open Engine

variable {u : Rules} {H : (α : Type) → Plan α → (before after : Nat) → Prop}

theorem token (h : Law u H) {t : Token} {trigger : Trigger}
    (found : u.find? t.name = some trigger) (column n : Nat) :
    H _ (tokenPlan column t trigger) n n :=
  h.bind (h.perform rfl rfl rfl) fun _ => h.bind (h.action found _ n) fun value =>
    h.bind (h.perform rfl rfl rfl) fun _ => h.done value n

theorem pieces (h : Law u H) (column : Nat) (ps : List Piece) (n : Nat) :
    H _ (u.piecesPlan column ps) n n := by
  induction ps generalizing column with
  | nil => exact h.done _ n
  | cons p ps ih =>
    cases p with
    | plain c => exact h.bind (ih _) fun o => h.done _ n
    | token t =>
      rw [piecesPlan]
      split
      · exact h.bind (h.perform rfl rfl rfl) fun _ => h.bind (ih _) fun o => h.done _ n
      · next trigger hfind =>
        refine h.bind (h.token hfind column n) fun value => ?_
        split
        · exact h.done _ n
        · exact h.bind (ih _) fun o => h.done _ n

/-- A pass spends one of those allowed. -/
theorem pass (h : Law u H) (text : List Char) (n : Nat) : H _ (u.passPlan text) (n + 1) n :=
  h.bind (h.perform rfl rfl rfl) fun _ => h.pieces 0 _ n

theorem settle (h : Law u H) (left : Nat) (text : List Char) (resolvedAny : Bool) :
    H _ (u.settlePlan left text resolvedAny) left 0 := by
  induction left generalizing text resolvedAny with
  | zero => exact h.done _ 0
  | succ left ih =>
    -- the passes that are not needed are left
    have hdone (o : Settled) : H Settled (pure o) left 0 := h.mono (h.done o 0) (Nat.zero_le left)
    refine h.bind (h.pass text left) fun o => ?_
    split
    · exact hdone _
    · exact hdone _
    · next mid n =>
      split
      · exact hdone _
      · split
        · split
          · exact h.bind (h.perform rfl rfl rfl) fun _ => hdone _
          · exact hdone _
        · exact ih mid true

theorem write (h : Law u H) (lines : List String) : H _ (writePlan lines) 0 0 := by
  induction lines with
  | nil => exact h.done () 0
  | cons l ls ih => exact h.bind (h.perform rfl rfl rfl) fun _ => ih

theorem emit (h : Law u H) (o : Settled) : H _ (emitPlan o) 0 0 := by
  unfold emitPlan
  split
  · exact h.done () 0
  · split
    · exact h.done () 0
    · exact h.write _
  · split
    · exact h.done () 0
    · exact h.write _

theorem line (h : Law u H) (l : Line) : H _ (u.linePlan l) u.passes 0 := by
  unfold linePlan
  split
  · exact h.bind (h.settle u.passes _ false) h.emit
  · exact h.mono (h.perform rfl rfl rfl) (Nat.zero_le u.passes)

theorem lines (h : Law u H) (ls : List Line) : H _ (u.linesPlan ls) 0 0 := by
  induction ls with
  | nil => exact h.done () 0
  | cons l ls ih => exact h.bind (h.perform rfl rfl rfl) fun _ => h.bind (h.line l) fun _ => ih

/-- A law holds of the plan of every template. No pass is made before the first line, and on each
line there are as many as are allowed. -/
theorem source (h : Law u H) (s : Source) : H _ (u.sourcePlan s) 0 0 := by
  refine h.bind (h.lines s.lines) fun _ => ?_
  split
  · exact h.done () 0
  · exact h.fail _ 0 0

end Law

end Rules

end Stencil
