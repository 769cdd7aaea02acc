import Mathlib.Data.List.Induction
import Stencil.Emit.Fields
import Stencil.Proofs.Run.Sliced
import Stencil.Proofs.Text.Breaks

/-!
# Where fragments stand

Fragments that are joined one per line stand on consecutive lines: the first one behind what is on
its line already, each further one behind the spaces of the indentation. `splitOn_joined` reads them
off the text that holds them, with their places. They are aligned just if the first one stands at the
indentation, too (`aligned_iff`).
-/

namespace Stencil

/-! ## The lines of a text that goes on -/

/-- Of a text that goes on, the last line is prolonged. It is as long as the column behind the text
says. -/
theorem exists_lastPart (cs : List Char) : ∃ (above : List (List Char)) (line : List Char),
    '\n' ∉ line ∧ line.length = advance 0 cs ∧
      ∀ rest, (cs ++ rest).splitOn '\n' = above ++ (line ++ rest).splitOn '\n' := by
  induction cs using List.reverseRecOn with
  | nil => exact ⟨[], [], List.not_mem_nil, rfl, fun rest => rfl⟩
  | append_singleton cs c ih =>
    obtain ⟨above, line, hline, hlength, hsplit⟩ := ih
    by_cases hc : c = '\n'
    · refine ⟨cs.splitOn '\n', [], List.not_mem_nil, ?_, fun rest => ?_⟩
      · rw [advance_append, hc]
        rfl
      · rw [hc, List.append_assoc]
        exact List.splitOn_append_cons_self cs rest
    · refine ⟨above, line ++ [c], ?_, ?_, fun rest => ?_⟩
      · simpa [hline] using Ne.symm hc
      · rw [advance_append, ← hlength, List.length_append]
        exact (if_neg hc).symm
      · rw [List.append_assoc, hsplit, List.append_assoc]

/-- What follows a text prolongs its last line by a first part. -/
theorem exists_firstPart (rest : List Char) : ∃ (tail : List Char) (below : List (List Char)),
    '\n' ∉ tail ∧ ∀ line, '\n' ∉ line → (line ++ rest).splitOn '\n' = (line ++ tail) :: below := by
  by_cases hrest : '\n' ∈ rest
  · obtain ⟨tail, more, rfl, htail⟩ := List.eq_append_cons_of_mem hrest
    refine ⟨tail, more.splitOn '\n', htail, fun line hline => ?_⟩
    rw [← List.append_assoc]
    exact List.splitOn_append_cons_self_of_not_mem (by simp [hline, htail]) more
  · exact ⟨rest, [], hrest, fun line hline => List.splitOn_eq_singleton (by simp [hline, hrest])⟩

/-! ## Joined fragments -/

open Naming

theorem joinContinued_cons (f g : String) (parts : List String) (separator : String)
    (indent : Nat) : joinContinued (f :: g :: parts) separator indent =
      f ++ separator ++ "\n" ++ Text.spaces indent ++
        joinContinued (g :: parts) separator indent := by
  rw [joinContinued, String.intercalate_cons_cons, joinContinued]
  simp only [String.append_assoc]

/-- A text that does not depend on the position is rendered for each field. -/
theorem render_continued (separator : String) (indent : Nat) (text : Field → String)
    (fs : List Field) : (Join.continued separator).render indent (fun _ f => text f) fs =
      joinContinued (fs.map text) separator indent := by
  have hparts : (fs.mapIdx fun _ f => text f) = fs.map text :=
    List.mapIdx_eq_iff.2 fun i => by rw [List.getElem?_map]
  show joinContinued (fs.mapIdx _) separator indent = _
  rw [hparts]

/-- A fragment on its line. -/
structure Placed where
  before : List Char
  fragment : String
  behind : List Char

namespace Placed

/-- The line. -/
def line (p : Placed) : List Char := p.before ++ p.fragment.toList ++ p.behind

/-- The column at which the fragment starts. -/
def column (p : Placed) : Nat := p.before.length

end Placed

/-- Fragments one below the other: the first one behind `head`, the others behind the indentation.
Behind each is the separator, and `tail` behind the last. -/
def placed (separator : String) (indent : Nat) (tail : List Char) :
    (head : List Char) → List String → List Placed
  | _, [] => []
  | head, [f] => [⟨head, f, tail⟩]
  | head, f :: g :: parts =>
    ⟨head, f, separator.toList⟩ ::
      placed separator indent tail (Text.spaces indent).toList (g :: parts)

variable {separator : String} {indent : Nat} {head tail : List Char} {parts : List String}

/-- They are placed one by one. -/
theorem map_fragment_placed : (placed separator indent tail head parts).map (·.fragment) = parts := by
  fun_induction placed separator indent tail head parts with
  | case1 => rfl
  | case2 => rfl
  | case3 head f g parts ih => exact congrArg (f :: ·) ih

theorem length_placed : (placed separator indent tail head parts).length = parts.length := by
  rw [← List.length_map (·.fragment), map_fragment_placed]

/-- Behind the indentation they all start there. -/
theorem column_of_mem_placed {p : Placed}
    (hp : p ∈ placed separator indent tail (Text.spaces indent).toList parts) :
    p.column = indent := by
  have hspaces : (Text.spaces indent).toList.length = indent := by
    rw [Text.spaces, String.toList_ofList, List.length_replicate]
  induction parts with
  | nil => cases hp
  | cons f parts ih =>
    cases parts with
    | nil =>
      obtain rfl := List.mem_singleton.1 hp
      exact hspaces
    | cons g parts =>
      rcases List.mem_cons.1 hp with rfl | hp
      · exact hspaces
      · exact ih hp

/-- The further fragments start at the column of the first one. -/
def Aligned (ps : List Placed) : Prop := ∀ first ∈ ps.head?, ∀ p ∈ ps, p.column = first.column

/-- Two fragments or more are aligned just if the first one starts at the indentation. -/
theorem aligned_iff (hparts : 2 ≤ parts.length) :
    Aligned (placed separator indent tail head parts) ↔ head.length = indent := by
  obtain ⟨f, g, parts, rfl⟩ : ∃ f g rest, parts = f :: g :: rest := by
    match parts, hparts with
    | f :: g :: rest, _ => exact ⟨f, g, rest, rfl⟩
  rw [placed]
  constructor
  · intro h
    obtain ⟨p, hp⟩ : ∃ p, p ∈ placed separator indent tail (Text.spaces indent).toList
        (g :: parts) := by
      cases parts with
      | nil => exact ⟨_, List.mem_cons_self⟩
      | cons => exact ⟨_, List.mem_cons_self⟩
    have hcolumn : p.column = head.length := h _ rfl p (List.mem_cons_of_mem _ hp)
    rw [← hcolumn, column_of_mem_placed hp]
  · rintro hhead first hfirst p hp
    obtain rfl := Option.some.inj hfirst
    rcases List.mem_cons.1 hp with rfl | hp
    · rfl
    · rw [column_of_mem_placed hp]
      exact hhead.symm

/-- Joined fragments behind a `head` stand on lines of their own. -/
theorem splitOn_head {below : List (List Char)} {rest : List Char}
    (hrest : ∀ line, '\n' ∉ line → (line ++ rest).splitOn '\n' = (line ++ tail) :: below)
    (hseparator : Text.Unbroken separator) (hparts : ∀ f ∈ parts, Text.Unbroken f)
    (hne : parts ≠ []) (hhead : '\n' ∉ head) :
    (head ++ ((joinContinued parts separator indent).toList ++ rest)).splitOn '\n' =
      (placed separator indent tail head parts).map Placed.line ++ below := by
  induction parts generalizing head with
  | nil => exact absurd rfl hne
  | cons f parts ih =>
    have hf : '\n' ∉ f.toList := hparts f List.mem_cons_self
    cases parts with
    | nil =>
      rw [joinContinued, String.intercalate_singleton, ← List.append_assoc,
        hrest _ (by simp [hhead, hf])]
      rfl
    | cons g parts =>
      have hspaces : '\n' ∉ (Text.spaces indent).toList := Text.unbroken_spaces indent
      have hseparator : '\n' ∉ separator.toList := hseparator
      have hlater := ih (fun k hk => hparts k (List.mem_cons_of_mem f hk))
        (List.cons_ne_nil g parts) hspaces
      have hfirst : '\n' ∉ head ++ f.toList ++ separator.toList := by simp [hhead, hf, hseparator]
      have htext : head ++ ((joinContinued (f :: g :: parts) separator indent).toList ++ rest) =
          (head ++ f.toList ++ separator.toList) ++ '\n' :: ((Text.spaces indent).toList ++
            ((joinContinued (g :: parts) separator indent).toList ++ rest)) := by
        rw [joinContinued_cons]
        simp [String.toList_append]
      rw [htext, List.splitOn_append_cons_self_of_not_mem hfirst, hlater]
      rfl

/-- **Joined fragments are on consecutive lines.** In a text that holds them, the first one stands at
the column to which the text in front goes, and the others at the indentation. -/
theorem splitOn_joined (front rest : List Char) (hseparator : Text.Unbroken separator)
    (hparts : ∀ f ∈ parts, Text.Unbroken f) (hne : parts ≠ []) :
    ∃ above head tail below, head.length = advance 0 front ∧
      (front ++ ((joinContinued parts separator indent).toList ++ rest)).splitOn '\n' =
        above ++ (placed separator indent tail head parts).map Placed.line ++ below := by
  obtain ⟨above, head, hhead, hlength, hfront⟩ := exists_lastPart front
  obtain ⟨tail, below, -, hrest⟩ := exists_firstPart rest
  refine ⟨above, head, tail, below, hlength, ?_⟩
  rw [hfront, splitOn_head hrest hseparator hparts hne hhead, List.append_assoc]

/-- Joined fragments alone are all lines of their text. -/
theorem splitOn_joinContinued (hseparator : Text.Unbroken separator)
    (hparts : ∀ f ∈ parts, Text.Unbroken f) (hne : parts ≠ []) :
    (joinContinued parts separator indent).toList.splitOn '\n' =
      (placed separator indent [] [] parts).map Placed.line := by
  have hrest (line : List Char) (hline : '\n' ∉ line) :
      (line ++ []).splitOn '\n' = (line ++ []) :: [] :=
    List.splitOn_eq_singleton (by simpa using hline)
  have h : ([] ++ ((joinContinued parts separator indent).toList ++ [])).splitOn '\n' = _ :=
    splitOn_head hrest hseparator hparts hne List.not_mem_nil
  rwa [List.nil_append, List.append_nil, List.append_nil] at h

/-- Fragments stand on consecutive lines of a text, each further one indented. -/
def OnLines (text separator : String) (indent : Nat) (parts : List String) : Prop :=
  ∃ above head tail below, text.toList.splitOn '\n' =
    above ++ (placed separator indent tail head parts).map Placed.line ++ below

theorem onLines_joined {text front rest : String}
    (htext : text = front ++ joinContinued parts separator indent ++ rest)
    (hseparator : Text.Unbroken separator) (hparts : ∀ f ∈ parts, Text.Unbroken f)
    (hne : parts ≠ []) : OnLines text separator indent parts := by
  rw [OnLines, htext, String.toList_append, String.toList_append, List.append_assoc]
  obtain ⟨above, head, tail, below, -, hsplit⟩ :=
    splitOn_joined front.toList rest.toList hseparator hparts hne
  exact ⟨above, head, tail, below, hsplit⟩

end Stencil
