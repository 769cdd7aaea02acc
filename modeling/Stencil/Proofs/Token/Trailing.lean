import Stencil.Proofs.Token.Grammar

/-!
# A carriage return at the end of a text

A carriage return belongs to no name and ends nothing, so that behind a text it makes no token and
takes none away: it is plain, or it belongs to the payload of a directive. `names_return` says that
the same triggers are called with it and without it.
-/

namespace Stencil

/-! ## Reading -/

/-- Where no `\|` begins, none does with a carriage return at the end. -/
theorem not_separator_return {c : Char} {cs : List Char}
    (hc : ∀ v, c = '\\' → cs = '|' :: v → False) (v : List Char) (hb : c = '\\')
    (hv : cs ++ ['\r'] = '|' :: v) : False := by
  cases cs with
  | nil => cases hv
  | cons d cs => exact hc cs hb (by rw [(List.cons.inj hv).1])

theorem readSegment_return (stop : Bool) (cs : List Char) :
    readSegment stop (cs ++ ['\r']) = (readSegment stop cs).map fun r => (r.1, r.2 ++ ['\r']) := by
  fun_induction readSegment stop cs with
  | case1 => cases stop <;> rfl
  | case2 cs ih => simp [readSegment, ih, Function.comp_def]
  | case3 cs hc => simp [readSegment]
  | case4 c cs hc hne hstop =>
    rw [List.cons_append, readSegment.eq_3 _ _ _ (not_separator_return hc), if_neg hne,
      if_pos hstop]
    rfl
  | case5 c cs hc hne hstop ih =>
    rw [List.cons_append, readSegment.eq_3 _ _ _ (not_separator_return hc), if_neg hne,
      if_neg hstop, ih]
    simp [Function.comp_def]

theorem readSegments_return (cs : List Char) :
    readSegments (cs ++ ['\r']) = ((readSegments cs).1, (readSegments cs).2 ++ ['\r']) := by
  obtain ⟨us, hcs, hus, hvs, hmax⟩ := readSegments_eq_iff.1 (rfl : readSegments cs = (_, _))
  refine readSegments_eq_iff.2 ⟨us, ?_, hus, hvs, ?_⟩
  · rw [← List.append_assoc, ← hcs]
  · rw [← readSegment_eq_none_iff] at hmax ⊢
    rw [readSegment_return, hmax]
    rfl

/-- What is read with a carriage return at the end of the text, `x'`, calls what is read without
it, `x`, and leaves the carriage return unless it leaves nothing. -/
def SameCall (x x' : Option (Token × List Char)) : Prop :=
  match x, x' with
  | none, none => True
  | some (t, rest), some (t', rest') =>
    t'.name = t.name ∧ (rest' = rest ++ ['\r'] ∨ rest = [] ∧ rest' = [])
  | _, _ => False

theorem readDirective_return (m : Char) (cs : List Char) :
    SameCall (readDirective m cs) (readDirective m (cs ++ ['\r'])) := by
  match cs with
  | [] => trivial
  | [d] => trivial
  | d :: c :: cs =>
    by_cases hc : c = '|'
    · subst hc
      simp only [List.cons_append, readDirective]
      split
      · rw [readSegment_return]
        cases readSegment false cs with
        | none => trivial
        | some r => exact ⟨rfl, .inr ⟨rfl, rfl⟩⟩
      · trivial
    · simp [readDirective, hc, SameCall]

theorem readNamed_return (m : Char) (cs : List Char) :
    SameCall (readNamed m cs) (readNamed m (cs ++ ['\r'])) := by
  have hreturn : isNameChar '\r' = false := rfl
  have htake : (cs ++ ['\r']).takeWhile isNameChar = cs.takeWhile isNameChar := by
    induction cs with
    | nil => rfl
    | cons c cs ih => by_cases hc : isNameChar c <;> simp [hc, ih]
  have hdrop : (cs ++ ['\r']).dropWhile isNameChar = cs.dropWhile isNameChar ++ ['\r'] := by
    rw [List.dropWhile_append]
    split
    · next hempty => rw [List.isEmpty_iff.1 hempty]; rfl
    · rfl
  unfold readNamed
  rw [htake, hdrop]
  split
  · trivial
  · cases cs.dropWhile isNameChar with
    | nil => trivial
    | cons c rest =>
      by_cases hbar : c = '|'
      · subst hbar
        simp only [List.cons_append, readSegments_return]
        exact ⟨rfl, .inl rfl⟩
      · by_cases hparen : c = '('
        · subst hparen
          simp only [List.cons_append]
          rw [List.dropWhile_append]
          cases rest.dropWhile (· != ')') with
          | nil => trivial
          | cons d after =>
            cases after with
            | nil => exact ⟨rfl, .inl rfl⟩
            | cons a after =>
              by_cases ha : a = '|'
              · subst ha
                exact ⟨rfl, .inl rfl⟩
              · simp [ha, SameCall, Token.name]
        · simp [hbar, hparen, SameCall]

theorem readToken_return (m : Char) (cs : List Char) :
    SameCall (readToken m cs) (readToken m (cs ++ ['\r'])) := by
  have hdirective := readDirective_return m cs
  have hnamed := readNamed_return m cs
  unfold readToken
  revert hdirective
  cases readDirective m cs <;> cases readDirective m (cs ++ ['\r']) <;> intro hdirective
  · exact hnamed
  · exact hdirective.elim
  · exact hdirective.elim
  · exact hdirective

/-! ## Tokens -/

theorem carriesMacros_return (cs : List Char) :
    carriesMacros (cs ++ ['\r']) = carriesMacros cs := by
  unfold carriesMacros
  induction cs with
  | nil => rfl
  | cons c cs ih =>
    by_cases hc : isMarker c
    · simp [hc]
    · simpa [hc] using ih

theorem scan_return (cs : List Char) :
    ((scan (cs ++ ['\r'])).filterMap Piece.token?).map Token.name =
      ((scan cs).filterMap Piece.token?).map Token.name := by
  fun_induction scan cs with
  | case1 => simp [scan, isMarker, Piece.token?]
  | case2 c cs hm t rest hread ih =>
    have hsame := readToken_return c cs
    rw [hread] at hsame
    rw [List.cons_append, scan, if_pos hm]
    split
    · next t' rest' hread' =>
      rw [hread'] at hsame
      obtain ⟨hname, rfl | ⟨rfl, rfl⟩⟩ := hsame
      · simp [Piece.token?, hname, ih]
      · simp [Piece.token?, hname]
    · next hread' =>
      rw [hread'] at hsame
      exact hsame.elim
  | case3 c cs hm hread ih =>
    have hsame := readToken_return c cs
    rw [hread] at hsame
    rw [List.cons_append, scan, if_pos hm]
    split
    · next hread' =>
      rw [hread'] at hsame
      exact hsame.elim
    · simpa [Piece.token?, List.filterMap_cons] using ih
  | case4 c cs hm ih =>
    rw [List.cons_append, scan, if_neg hm]
    simpa [Piece.token?, List.filterMap_cons] using ih

/-- With a carriage return at its end, a text calls the same triggers. -/
theorem names_return (cs : List Char) :
    (tokenize (String.ofList (cs ++ ['\r']))).map Token.name =
      (tokenize (String.ofList cs)).map Token.name := by
  simp only [tokenize, String.toList_ofList, pieces, carriesMacros_return]
  split
  · exact scan_return cs
  · rw [filterMap_plain, filterMap_plain]

end Stencil
