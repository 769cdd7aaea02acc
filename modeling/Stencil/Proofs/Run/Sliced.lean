import Stencil.Check
import Stencil.Proofs.Run.Substituted

/-!
# Passes and checks by byte offsets

A pass can also be made with a cursor that moves over the text, and a check with the offsets of the
tokens, each looking at the text through slices only. Neither ever asks for a slice that is none,
whatever the text and whatever bounds the triggers declare, and each comes to what the pass and the
check over the pieces of the text come to (`token_spans_sliceable`).
-/

namespace Stencil

open Text (byteSize)

/-! ## Columns -/

/-- Where the last line of a text starts. -/
def lastLineStart (cs : List Char) : Nat := byteSize (cs.reverse.dropWhile (· != '\n')).reverse

/-- The column of an offset: the characters that stand in front of it on its line. -/
def columnAt? (cs : List Char) (p : Nat) : Option Nat := do
  let before ← slice? cs ⟨0, p⟩
  let line ← slice? cs ⟨lastLineStart before, p⟩
  some line.length

theorem advance_append (column : Nat) (cs ds : List Char) :
    advance column (cs ++ ds) = advance (advance column cs) ds := List.foldl_append

/-- Within a line each character takes one column. -/
theorem advance_line (column : Nat) {line : List Char} (hline : '\n' ∉ line) :
    advance column line = column + line.length := by
  induction line generalizing column with
  | nil => rfl
  | cons c line ih =>
    have hc : c ≠ '\n' := fun h => hline (h ▸ List.mem_cons_self)
    show advance (if c = '\n' then 0 else column + 1) line = _
    rw [if_neg hc, ih _ fun h => hline (List.mem_cons_of_mem c h), List.length_cons]
    omega

/-- A text is what stands above its last line, and that line. -/
theorem exists_lastLine (cs : List Char) : ∃ above line, cs = above ++ line ∧ '\n' ∉ line ∧
    lastLineStart cs = byteSize above ∧ advance 0 above = 0 := by
  refine ⟨(cs.reverse.dropWhile (· != '\n')).reverse, (cs.reverse.takeWhile (· != '\n')).reverse,
    ?_, fun hmem => ?_, rfl, ?_⟩
  · rw [← List.reverse_append, List.takeWhile_append_dropWhile, List.reverse_reverse]
  · have hall := List.all_eq_true.1 (List.all_takeWhile (p := (· != '\n')) (l := cs.reverse)) _
      (List.mem_reverse.1 hmem)
    simp at hall
  · cases hdrop : cs.reverse.dropWhile (· != '\n') with
    | nil => rfl
    | cons c rest =>
      obtain ⟨-, -, hc⟩ := dropWhile_eq_cons_iff.1 hdrop
      obtain rfl : c = '\n' := by simpa using hc
      rw [List.reverse_cons, advance_append]
      rfl

/-- The column that is found by offsets is the one that is counted. -/
theorem columnAt?_append (pre rest : List Char) :
    columnAt? (pre ++ rest) (byteSize pre) = some (advance 0 pre) := by
  have hbefore : slice? (pre ++ rest) ⟨0, byteSize pre⟩ = some pre :=
    slice?_eq_some_iff.2 ⟨[], rest, rfl, rfl, Nat.zero_add _⟩
  rw [columnAt?, hbefore, Option.bind_eq_bind, Option.bind_some]
  obtain ⟨above, line, rfl, hline, hstart, hzero⟩ := exists_lastLine pre
  rw [hstart, List.append_assoc, Text.byteSize_append, slice?_append above line rest,
    Option.bind_some, advance_append, hzero, advance_line 0 hline, Nat.zero_add]

/-! ## Passes -/

namespace Engine

/-- Resolves the tokens found in a text, from left to right. What stands in front of the cursor has
been dealt with. -/
def passAt (e : Engine) (sub : Sub) (cs : List Char) : (cursor : Nat) → List Spanned →
    Option (Gen Outcome)
  | cursor, [] => do
    let rest ← slice? cs ⟨cursor, byteSize cs⟩
    some (pure (.rewritten rest 0))
  | cursor, t :: ts =>
    match e.registry.find? t.name with
    | none => do
      let raw ← slice? cs t.full
      let (gap, next) ← match e.limits.unknown with
        | .keep => some ([], cursor)
        | .remove => (slice? cs ⟨cursor, t.full.start⟩).map fun gap => (gap, t.full.stop)
      let rest ← passAt e sub cs next ts
      some do
        modify fun r => r.mapReport (·.noteUnknown (r.unresolved raw))
        let o ← rest
        pure (o.kept gap)
    | some trigger => do
      let (span, params) ← t.consume? trigger.maxParams
      let shown ← slice? cs span
      let column ← columnAt? cs span.start
      let gap ← slice? cs ⟨cursor, span.start⟩
      let rest ← passAt e sub cs span.stop ts
      some do
        modify (·.mapContext fun c => { c with token := some (String.ofList shown), column })
        let value ← perform e sub (trigger.resolve params)
        modify (·.mapContext fun c => { c with token := none })
        if trigger.replacesLine then pure (.replaced value)
        else
          let o ← rest
          pure (o.resolved (gap ++ valueText value))

/-- From any cursor on, a pass by offsets is the pass over the pieces that follow; what stands between
the cursor and the pieces is kept. -/
theorem passAt_eq (e : Engine) (sub : Sub) (done gap : List Char) {cs before : List Char}
    {ps : List Piece}
    (hcs : cs = before ++ (ps.map Piece.source).flatten) (hbefore : before = done ++ gap) :
    passAt e sub cs (byteSize done) (spannedPieces (byteSize before) ps) =
      some (resolvePieces e sub (advance 0 before) ps >>= fun o => pure (o.kept gap)) := by
  induction ps generalizing before done gap with
  | nil =>
    have hrest := slice?_append_end done gap
    rw [List.map_nil, List.flatten_nil, List.append_nil] at hcs
    rw [← hbefore, ← hcs] at hrest
    simp only [spannedPieces, locate, List.map_nil, passAt, resolvePieces, hrest, pure_bind,
      Option.bind_eq_bind, Option.bind_some, Outcome.kept, List.append_nil]
  | cons p ps ih =>
    rw [List.map_cons, List.flatten_cons] at hcs
    have hgap := slice?_gap hcs hbefore
    cases p with
    | plain c =>
      have hafter : cs = before ++ [c] ++ (ps.map Piece.source).flatten := by
        rw [hcs, List.append_assoc]
        rfl
      have hbehind := ih done (gap ++ [c]) hafter (by rw [hbefore, List.append_assoc])
      rw [Text.byteSize_append, advance_append] at hbehind
      refine hbehind.trans (congrArg some ?_)
      simp only [resolvePieces, bind_assoc, pure_bind, kept_eq_behind, behind_behind]
    | token t =>
      have hname : (t.spanned (byteSize before)).name = t.name := rfl
      have hfull := full_spanned t (byteSize before)
      have hafter : cs = before ++ t.source ++ (ps.map Piece.source).flatten := by
        rw [hcs, List.append_assoc]
        rfl
      rw [spannedPieces_token, passAt, resolvePieces, hname]
      cases hfound : e.registry.find? t.name with
      | none =>
        have hraw := slice?_full hcs
        simp only [hraw, Option.bind_eq_bind, Option.bind_some]
        cases hpolicy : e.limits.unknown with
        | keep =>
          -- the cursor stays, and the gap grows by the token
          have hbehind := ih done (gap ++ t.source) hafter
            (by rw [hbefore, List.append_assoc])
          rw [Text.byteSize_append, advance_append] at hbehind
          simp only [Option.bind_some, hbehind, unknownText, hpolicy, bind_assoc, pure_bind,
            kept_eq_behind, behind_behind, behind_nil]
        | remove =>
          have hbehind := ih (before ++ t.source) [] hafter (List.append_nil _).symm
          rw [Text.byteSize_append, advance_append] at hbehind
          simp only [hfull, hgap, hbehind, Option.map_some, Option.bind_some, unknownText, hpolicy,
            bind_assoc, pure_bind, kept_eq_behind, behind_behind, List.append_nil]
      | some trigger =>
        -- the cursor goes behind what is consumed, so that the further parameters are a gap
        have hshown := slice?_sourceUpTo hcs trigger.maxParams
        have hcolumn : columnAt? cs (byteSize before) = some (advance 0 before) := by
          rw [hcs]
          exact columnAt?_append before _
        have hbehind := ih (before ++ t.sourceUpTo trigger.maxParams)
          (t.sourceBeyond trigger.maxParams) hafter
          (by rw [List.append_assoc, t.sourceUpTo_append_sourceBeyond])
        rw [Text.byteSize_append, Text.byteSize_append, advance_append] at hbehind
        simp only [consume?_spanned, hshown, hcolumn, hgap, hbehind, Option.bind_eq_bind,
          Option.bind_some, resolveToken, bind_assoc, pure_bind]
        refine congrArg some (bind_congr fun _ => bind_congr fun value => bind_congr fun _ => ?_)
        split
        · simp only [pure_bind, Outcome.kept]
        · simp only [bind_assoc, pure_bind, kept_eq_behind, resolved_eq_behind, behind_behind,
            List.append_assoc]

end Engine

/-! ## Checks -/

/-- The finding for a token found on a line. -/
def findingAt (line : Line) (t : Spanned) : Option Finding := do
  let inFront ← slice? line.text.toList ⟨0, t.full.start⟩
  let raw ← slice? line.text.toList t.full
  some {
    line := line.number
    column := inFront.length + 1
    name := t.name
    token := String.ofList raw }

/-- The findings among the tokens of a line, by offsets. -/
def findingsAt (registry : Registry) (line : Line) : Option (List Finding) := do
  let ts ← spannedTokens line.text.toList
  (ts.filter fun t => !registry.contains t.name).mapM (findingAt line)

theorem mapM_findingAt (registry : Registry) (line : Line) (before : List Char) {ps : List Piece}
    (htext : line.text.toList = before ++ (ps.map Piece.source).flatten) :
    ((spannedPieces (byteSize before) ps).filter fun t => !registry.contains t.name).mapM
        (findingAt line) =
      some (((locate List.length (before.length + 1) ps).filter
        fun x => !registry.contains x.2.name).map fun x =>
          ⟨line.number, x.1, x.2.name, String.ofList x.2.source⟩) := by
  induction ps generalizing before with
  | nil => rfl
  | cons p ps ih =>
    rw [List.map_cons, List.flatten_cons, ← List.append_assoc] at htext
    have hbehind := ih (before ++ p.source) htext
    rw [Text.byteSize_append, List.length_append, Nat.add_right_comm] at hbehind
    cases p with
    | plain c => exact hbehind
    | token t =>
      rw [List.append_assoc] at htext
      have hfront : slice? line.text.toList ⟨0, byteSize before⟩ = some before :=
        slice?_eq_some_iff.2 ⟨[], _, htext, rfl, Nat.zero_add _⟩
      have hfinding : findingAt line (t.spanned (byteSize before)) =
          some ⟨line.number, before.length + 1, t.name, String.ofList t.source⟩ := by
        have hraw := slice?_full htext
        have hstart : (t.spanned (byteSize before)).full.start = byteSize before := rfl
        rw [findingAt, hstart, hfront, hraw]
        rfl
      have hname : (t.spanned (byteSize before)).name = t.name := rfl
      rw [spannedPieces_token, locate, List.filter_cons, List.filter_cons, hname]
      split
      · rw [List.mapM_cons, hfinding]
        simp only [Piece.source] at hbehind
        rw [Option.bind_eq_bind, Option.bind_some, hbehind]
        rfl
      · exact hbehind

/-- A check by offsets is the check. -/
theorem findingsAt_eq (registry : Registry) (line : Line) :
    findingsAt registry line = some (CheckReport.findings registry line) := by
  rw [findingsAt, spannedTokens_eq, Option.bind_eq_bind, Option.bind_some]
  exact mapM_findingAt registry line [] (flatten_pieces _).symm

/-! ## Every slice -/

/-- **Token spans are always safe to slice.** Whatever the text, its tokens are found by offsets, with
spans that start and stop between characters, in order and without overlap. A pass with a moving
cursor, over any registry, and a check then slice the text only where it can be sliced, and come to
what is made of the pieces of the text. -/
theorem token_spans_sliceable (s : String) :
    ∃ ts, spannedTokens s.toList = some ts ∧ ts = (located s).map (fun x => x.2.spanned x.1) ∧
      tokenize s = (located s).map (·.2) ∧
      (∀ t ∈ ts, t.SafeIn s) ∧
      ts.Pairwise (fun t u => t.full.stop ≤ u.full.start) ∧
      (∀ (e : Engine) (sub : Engine.Sub), e.passAt sub s.toList 0 ts =
        some (e.resolvePieces sub 0 (pieces s.toList))) ∧
      ∀ (registry : Registry) (number : Nat), findingsAt registry ⟨number, s⟩ =
        some (CheckReport.findings registry ⟨number, s⟩) := by
  refine ⟨spannedPieces 0 (pieces s.toList), spannedTokens_eq s.toList, rfl, (map_locate _ _ _).symm,
    fun t ht => ?_, ?_, fun e sub => ?_, fun registry number => findingsAt_eq registry ⟨number, s⟩⟩
  · obtain ⟨⟨p, u⟩, hmem, rfl⟩ := List.mem_map.1 ht
    exact spanned_safeIn hmem
  · refine List.pairwise_map.2 ((locate_ordered byteSize 0 _).2.imp fun {x y} hle => ?_)
    rw [full_spanned, full_spanned]
    exact hle
  · have htext : s.toList = [] ++ ((pieces s.toList).map Piece.source).flatten :=
      (flatten_pieces s.toList).symm
    have hpass := e.passAt_eq sub [] [] htext rfl
    refine hpass.trans (congrArg some ?_)
    simp only [Engine.kept_eq_behind, Engine.behind_nil, bind_pure]
    rfl

end Stencil
