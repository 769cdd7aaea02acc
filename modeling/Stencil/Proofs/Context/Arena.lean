import Stencil.Context.Arena

/-!
# The stack of contexts

What the operations of an arena make of the list of its contexts, and what a look-up finds
afterwards. `release_eq` is the law on which calls rest: an arena that agrees with an earlier one
below the size of that one becomes that one when it is cut there.
-/

namespace Stencil.Arena

variable {a b : Arena} {c : Context} {f : Context → Context} {i j : Nat}

theorem length_contexts (a : Arena) : a.contexts.length = a.size := rfl

/-- An arena is the list of its contexts. -/
theorem ext_contexts (h : a.contexts = b.contexts) : a = b := by
  cases a
  cases b
  simpa [contexts] using h

theorem contexts_push (a : Arena) (c : Context) : (a.push c).contexts = a.contexts ++ [c] := rfl

theorem contexts_modify (a : Arena) (i : Nat) (f : Context → Context) :
    (a.modify i f).contexts = a.contexts.modify i f := by
  cases i with
  | zero => rfl
  | succ n => simp [modify, contexts]

theorem contexts_release (a : Arena) (hi : 0 < i) :
    (a.release i).contexts = a.contexts.take i := by
  cases i with
  | zero => omega
  | succ n => simp [release, contexts]

@[simp]
theorem size_push (a : Arena) (c : Context) : (a.push c).size = a.size + 1 := by
  simp [size, push]

@[simp]
theorem size_modify (a : Arena) (i : Nat) (f : Context → Context) :
    (a.modify i f).size = a.size := by
  rw [← length_contexts, contexts_modify, List.length_modify, length_contexts]

theorem size_pos (a : Arena) : 0 < a.size := Nat.succ_pos _

/-- An arena that is cut at a live place is as large as that place tells. -/
theorem size_release (a : Arena) (hi : 0 < i) (hlive : i ≤ a.size) : (a.release i).size = i := by
  rw [← length_contexts, contexts_release a hi, List.length_take, length_contexts]
  exact Nat.min_eq_left hlive

/-! ## Look-ups -/

/-- The live places are those below the size. -/
theorem get?_eq_none_iff : a.get? i = none ↔ a.size ≤ i := by
  rw [get?, List.getElem?_eq_none_iff, length_contexts]

/-- The context at a place that is live. -/
theorem get?_eq_get (hi : i < a.size) : a.get? i = some (a.get i) := by
  cases hc : a.get? i with
  | none => exact absurd (get?_eq_none_iff.1 hc) (by omega)
  | some c => rw [get, hc, Option.getD_some]

/-- A place at which there is a context is live. -/
theorem lt_size_of_get? (hc : a.get? i = some c) : i < a.size := by
  refine Nat.lt_of_not_le fun hout => ?_
  rw [get?_eq_none_iff.2 hout] at hc
  cases hc

/-- A change shows at its place only. -/
theorem get?_modify (a : Arena) (i : Nat) (f : Context → Context) (j : Nat) :
    (a.modify i f).get? j = if i = j then (a.get? j).map f else a.get? j := by
  rw [get?, contexts_modify, List.getElem?_modify]
  split <;> simp [get?]

theorem get?_modify_of_ne (h : j ≠ i) : (a.modify i f).get? j = a.get? j := by
  rw [get?_modify, if_neg h.symm]

/-- Where nothing lives, there is nothing to change. -/
theorem modify_of_size_le (h : a.size ≤ i) : a.modify i f = a := by
  apply ext_contexts
  rw [contexts_modify, List.modify_eq_self]
  rwa [length_contexts]

theorem get_modify_self (h : i < a.size) : (a.modify i f).get i = f (a.get i) := by
  cases hc : a.get? i with
  | none => exact absurd (get?_eq_none_iff.1 hc) (by omega)
  | some c => simp [get, get?_modify, hc]

/-- What is so of all contexts, and of what a change makes of any such context, is so of all of them
afterwards. -/
theorem forall_contexts_modify {P : Context → Prop} (hf : ∀ c, P c → P (f c))
    (ha : ∀ c ∈ a.contexts, P c) : ∀ c ∈ (a.modify i f).contexts, P c := by
  intro c hc
  obtain ⟨j, hj⟩ := List.mem_iff_getElem?.1 hc
  have hj : (a.modify i f).get? j = some c := hj
  rw [get?_modify] at hj
  split at hj
  · obtain ⟨d, hd, rfl⟩ := Option.map_eq_some_iff.1 hj
    exact hf d (ha d (List.mem_of_getElem? hd))
  · exact ha c (List.mem_of_getElem? hj)

/-- A context put on top is found at the former size. -/
theorem get?_push_size (a : Arena) (c : Context) : (a.push c).get? a.size = some c := by
  rw [get?, contexts_push, ← length_contexts, List.getElem?_concat_length]

theorem get?_push_of_lt (h : i < a.size) : (a.push c).get? i = a.get? i := by
  rw [get?, contexts_push, List.getElem?_append_left h, get?]

theorem get_push_size (a : Arena) (c : Context) : (a.push c).get a.size = c := by
  rw [get, get?_push_size, Option.getD_some]

/-- What lies below the cut is as it was, and nothing lies above it. -/
theorem get?_release (a : Arena) (hi : 0 < i) (j : Nat) :
    (a.release i).get? j = if j < i then a.get? j else none := by
  rw [get?, contexts_release a hi]
  split
  · next hj => exact List.getElem?_take_of_lt hj
  · next hj => exact List.getElem?_take_eq_none (Nat.le_of_not_lt hj)

/-- A context that is live after a release was so before. -/
theorem mem_contexts_of_release (h : c ∈ (a.release i).contexts) : c ∈ a.contexts := by
  cases i with
  | zero => exact h
  | succ n =>
    rw [contexts_release a (Nat.succ_pos n)] at h
    exact List.mem_of_mem_take h

/-- Cutting an arena at the size of an earlier one gives the earlier one back, where they agree
below. -/
theorem release_eq (h : ∀ i < a.size, b.get? i = a.get? i) : b.release a.size = a := by
  apply ext_contexts
  rw [contexts_release b a.size_pos]
  apply List.ext_getElem?
  intro i
  by_cases hi : i < a.size
  · rw [List.getElem?_take_of_lt hi]
    exact h i hi
  · have hout : a.get? i = none := get?_eq_none_iff.2 (by omega)
    rw [List.getElem?_take_eq_none (by omega)]
    exact hout.symm

end Stencil.Arena
