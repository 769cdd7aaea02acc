import Stencil.Source

/-!
# Breaking lines

No line that is read holds a line feed. Lines that hold none, and do not end in a carriage return,
are read back from the text in which a line feed ends each of them (`breakLines_terminated`).
-/

namespace Stencil

variable {α : Type} [DecidableEq α] {lf cr : α}

/-- What separates the parts of a list is in none of them. -/
theorem not_mem_of_mem_splitOn {cs part : List α} (h : part ∈ cs.splitOn lf) : lf ∉ part := by
  induction cs generalizing part with
  | nil =>
    rw [List.splitOn_nil, List.mem_singleton] at h
    simp [h]
  | cons c cs ih =>
    rw [List.splitOn_cons_eq_if_modifyHead] at h
    split at h
    · rcases List.mem_cons.1 h with rfl | h
      · exact List.not_mem_nil
      · exact ih h
    · next hc =>
      have hc : lf ≠ c := fun heq => hc (by simp [heq])
      cases hsplit : cs.splitOn lf with
      | nil => exact absurd hsplit (List.splitOn_ne_nil lf cs)
      | cons first rest =>
        rw [hsplit, List.modifyHead_cons] at h
        rcases List.mem_cons.1 h with rfl | h
        · simpa [hc] using ih (hsplit ▸ List.mem_cons_self)
        · exact ih (hsplit ▸ List.mem_cons_of_mem _ h)

omit [DecidableEq α] in
/-- What parts are put together to comes from the separator or from one of the parts. -/
theorem mem_of_mem_intercalate {sep : List α} {parts : List (List α)} {x : α}
    (h : x ∈ sep.intercalate parts) : x ∈ sep ∨ ∃ part ∈ parts, x ∈ part := by
  induction parts with
  | nil => exact absurd h List.not_mem_nil
  | cons part parts ih =>
    cases parts with
    | nil =>
      rw [List.intercalate_singleton] at h
      exact .inr ⟨part, List.mem_cons_self, h⟩
    | cons next parts =>
      rw [List.intercalate_cons_cons, List.mem_append, List.mem_append] at h
      obtain (h | h) | h := h
      · exact .inr ⟨part, List.mem_cons_self, h⟩
      · exact .inl h
      · exact (ih h).imp_right fun ⟨found, hfound, h⟩ =>
          ⟨found, List.mem_cons_of_mem part hfound, h⟩

theorem not_mem_dropLastIf {x y : α} {l : List α} (h : x ∉ l) : x ∉ dropLastIf y l := by
  unfold dropLastIf
  split
  · exact fun hx => h ((List.dropLast_sublist l).mem hx)
  · exact h

theorem dropLastIf_of_ne {x : α} {l : List α} (h : l.getLast? ≠ some x) : dropLastIf x l = l :=
  if_neg h

/-- What stands in front stays when it does not end in what is dropped. -/
theorem isPrefix_dropLastIf {x : α} {cs : List α} (hcs : cs.getLast? ≠ some x) (ds : List α) :
    cs <+: dropLastIf x (cs ++ ds) := by
  unfold dropLastIf
  split
  · next hlast =>
    have hds : ds ≠ [] := by
      rintro rfl
      exact hcs (by rwa [List.append_nil] at hlast)
    rw [List.dropLast_append_of_ne_nil hds]
    exact List.prefix_append _ _
  · exact List.prefix_append _ _

/-- No line that is read holds a line feed. -/
theorem not_mem_of_mem_breakLines {cs line : List α} (h : line ∈ breakLines lf cr cs) :
    lf ∉ line := by
  rcases List.mem_append.1 h with h | h
  · obtain ⟨part, hpart, rfl⟩ := List.mem_map.1 h
    exact not_mem_dropLastIf (not_mem_of_mem_splitOn ((List.dropLast_sublist _).mem hpart))
  · split at h
    · cases h
    · cases h
    · next last _ hlast =>
      rw [List.mem_singleton.1 h]
      exact not_mem_of_mem_splitOn (List.mem_of_getLast? hlast)

/-- Terminated lines are split off one by one, and nothing is left. -/
theorem splitOn_terminated {ls : List (List α)} (hls : ∀ l ∈ ls, lf ∉ l) :
    (ls.flatMap (· ++ [lf])).splitOn lf = ls ++ [[]] := by
  induction ls with
  | nil => rfl
  | cons l ls ih =>
    rw [List.flatMap_cons, List.append_assoc, List.singleton_append,
      List.splitOn_append_cons_self_of_not_mem (hls l List.mem_cons_self),
      ih fun k hk => hls k (List.mem_cons_of_mem l hk), List.cons_append]

/-- Lines without a line feed that do not end in a carriage return are read back. -/
theorem breakLines_terminated {ls : List (List α)}
    (hls : ∀ l ∈ ls, lf ∉ l ∧ l.getLast? ≠ some cr) :
    breakLines lf cr (ls.flatMap (· ++ [lf])) = ls := by
  rw [breakLines, splitOn_terminated fun l hl => (hls l hl).1]
  simp only [List.dropLast_concat, List.getLast?_append, List.getLast?_singleton, Option.some_or,
    List.append_nil]
  exact (List.map_congr_left fun l hl => dropLastIf_of_ne (hls l hl).2).trans (List.map_id' ls)

/-- Numbering leaves the texts. -/
theorem Line.map_text_numbered (n : Nat) (texts : List String) :
    (Line.numbered n texts).map (·.text) = texts := by
  induction texts generalizing n with
  | nil => rfl
  | cons t ts ih => rw [numbered, List.map_cons, ih]

end Stencil
