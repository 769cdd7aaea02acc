import Stencil.Token.Basic

/-!
# Finding the tokens of a text

`scan` cuts a text into plain characters and tokens, leftmost first; `flatten_scan` says that
nothing is lost. A marker that no well-formed name and terminator follow is plain text. A text
in which no `|` follows the first marker carries no macro at all, whatever else stands in it,
and `pieces` does not look for tokens there.
-/

namespace Stencil

/-- A plain character or a token. -/
inductive Piece where
  | plain (c : Char)
  | token (t : Token)
deriving DecidableEq, Repr

namespace Piece

/-- The text of a piece. -/
def source : Piece → List Char
  | plain c => [c]
  | token t => t.source

/-- The token, when the piece is one. -/
def token? : Piece → Option Token
  | plain _ => none
  | token t => some t

end Piece

/-! ## Parameters -/

/-- The text up to the first `|` that is not written `\|`, unescaped, and what follows. With
`stop`, a marker before that `|` means that there is no such segment. -/
def readSegment (stop : Bool) : List Char → Option (List Char × List Char)
  | [] => none
  | '\\' :: '|' :: cs => (readSegment stop cs).map fun r => ('|' :: r.1, r.2)
  | c :: cs =>
    if c = '|' then some ([], cs)
    else if stop && isMarker c then none
    else (readSegment stop cs).map fun r => (c :: r.1, r.2)

theorem readSegment_eq {stop : Bool} {cs v rest : List Char}
    (h : readSegment stop cs = some (v, rest)) : cs = Token.segment v ++ rest := by
  fun_induction readSegment stop cs generalizing v with
  | case1 => simp at h
  | case2 cs ih =>
    obtain ⟨⟨w, r⟩, hr, he⟩ := Option.map_eq_some_iff.1 h
    cases he
    simp [ih hr, Token.segment, escape]
  | case3 cs hc =>
    cases h
    simp [Token.segment, escape]
  | case4 c cs hc hne hstop => simp at h
  | case5 c cs hc hne hstop ih =>
    obtain ⟨⟨w, r⟩, hr, he⟩ := Option.map_eq_some_iff.1 h
    cases he
    simp [ih hr, Token.segment, escape, hne]

theorem readSegment_length_lt {stop : Bool} {cs v rest : List Char}
    (h : readSegment stop cs = some (v, rest)) : rest.length < cs.length := by
  rw [readSegment_eq h]
  simp [Token.segment]
  omega

/-- The longest run of segments without a marker, and what follows. -/
def readSegments (cs : List Char) : List (List Char) × List Char :=
  match _h : readSegment true cs with
  | none => ([], cs)
  | some (v, rest) => (v :: (readSegments rest).1, (readSegments rest).2)
termination_by cs.length
decreasing_by all_goals exact readSegment_length_lt _h

theorem readSegments_eq (cs : List Char) :
    cs = ((readSegments cs).1.map Token.segment).flatten ++ (readSegments cs).2 := by
  fun_induction readSegments cs with
  | case1 cs h => simp
  | case2 cs v rest h ih =>
    simp only [List.map_cons, List.flatten_cons, List.append_assoc]
    rw [← ih]
    exact readSegment_eq h

/-! ## Tokens -/

/-- A directive behind the marker `m`: its name, a `|` and a terminated guard. -/
def readDirective (m : Char) : List Char → Option (Token × List Char)
  | d :: '|' :: cs =>
    if isDirectiveName d then
      (readSegment false cs).map fun r => (⟨m, [d], .directive r.1 r.2⟩, [])
    else none
  | _ => none

/-- A named call behind the marker `m`: a name, then `|` or a parenthesis that is closed. -/
def readNamed (m : Char) (cs : List Char) : Option (Token × List Char) :=
  if (cs.takeWhile isNameChar).isEmpty then none
  else
    match cs.dropWhile isNameChar with
    | '|' :: rest =>
      some (⟨m, cs.takeWhile isNameChar, .pipe (readSegments rest).1⟩, (readSegments rest).2)
    | '(' :: rest =>
      match rest.dropWhile (· != ')') with
      | [] => none
      | _ :: '|' :: after =>
        some (⟨m, cs.takeWhile isNameChar, .paren (rest.takeWhile (· != ')')) true⟩, after)
      | _ :: after =>
        some (⟨m, cs.takeWhile isNameChar, .paren (rest.takeWhile (· != ')')) false⟩, after)
    | _ => none

/-- The token that the marker `m` opens before `cs`, and what follows it. -/
def readToken (m : Char) (cs : List Char) : Option (Token × List Char) :=
  (readDirective m cs).or (readNamed m cs)

theorem readDirective_eq {m : Char} {cs rest : List Char} {t : Token}
    (h : readDirective m cs = some (t, rest)) : m :: cs = t.source ++ rest := by
  unfold readDirective at h
  split at h
  · split at h
    · obtain ⟨⟨v, r⟩, hr, he⟩ := Option.map_eq_some_iff.1 h
      cases he
      simp [Token.source, Token.head, Token.tail, readSegment_eq hr]
    · simp at h
  · simp at h

private theorem dropWhile_eq_cons {p : Char → Bool} {cs rest : List Char} {c : Char}
    (h : cs.dropWhile p = c :: rest) : cs = cs.takeWhile p ++ c :: rest := by
  rw [← h, List.takeWhile_append_dropWhile]

private theorem head_dropWhile {p : Char → Bool} {cs rest : List Char} {c : Char}
    (h : cs.dropWhile p = c :: rest) : p c = false := by
  induction cs with
  | nil => simp at h
  | cons d ds ih =>
    by_cases hd : p d
    · exact ih (by simpa [hd] using h)
    · simp only [List.dropWhile_cons, hd] at h
      cases h
      simpa using hd

theorem readNamed_eq {m : Char} {cs rest : List Char} {t : Token}
    (h : readNamed m cs = some (t, rest)) : m :: cs = t.source ++ rest := by
  unfold readNamed at h
  split at h
  · simp at h
  · split at h
    · next r hr =>
      cases h
      have hc := dropWhile_eq_cons hr
      have hs := readSegments_eq r
      simp only [Token.source, Token.head, Token.tail, List.cons_append, List.append_assoc,
        List.nil_append, ← hs, ← hc]
    · next r hr =>
      have hc := dropWhile_eq_cons hr
      split at h
      · simp at h
      · next p after hd =>
        cases h
        have hp := head_dropWhile hd
        have hi := dropWhile_eq_cons hd
        simp only [bne_eq_false_iff_eq] at hp
        subst hp
        simp only [Token.source, Token.head, Token.tail, List.flatten_nil, List.append_nil,
          if_true, List.cons_append, List.append_assoc, List.nil_append, ← hi, ← hc]
      · next p after _ hd =>
        cases h
        have hp := head_dropWhile hd
        have hi := dropWhile_eq_cons hd
        simp only [bne_eq_false_iff_eq] at hp
        subst hp
        simp only [Token.source, Token.head, Token.tail, List.flatten_nil, List.append_nil,
          Bool.false_eq_true, if_false, List.cons_append, List.append_assoc, List.nil_append,
          ← hi, ← hc]
    · simp at h

/-- A token and what follows it are the text that was read. -/
theorem readToken_eq {m : Char} {cs rest : List Char} {t : Token}
    (h : readToken m cs = some (t, rest)) : m :: cs = t.source ++ rest := by
  rcases Option.or_eq_some_iff.1 h with h | ⟨_, h⟩
  · exact readDirective_eq h
  · exact readNamed_eq h

theorem Token.source_ne_nil (t : Token) : t.source ≠ [] := by
  simp [Token.source, Token.head]

theorem readToken_length_le {m : Char} {cs rest : List Char} {t : Token}
    (h : readToken m cs = some (t, rest)) : rest.length ≤ cs.length := by
  have := congrArg List.length (readToken_eq h)
  have : 0 < t.source.length := List.length_pos_iff.2 t.source_ne_nil
  simp at *
  omega

/-! ## Texts -/

/-- The plain characters and the tokens of a text, leftmost first. -/
def scan : List Char → List Piece
  | [] => []
  | c :: cs =>
    if isMarker c then
      match _h : readToken c cs with
      | some (t, rest) => .token t :: scan rest
      | none => .plain c :: scan cs
    else .plain c :: scan cs
termination_by cs => cs.length
decreasing_by
  · exact Nat.lt_succ_of_le (readToken_length_le _h)
  all_goals exact Nat.lt_succ_self _

/-- The pieces of a text make up the text. -/
theorem flatten_scan (cs : List Char) : ((scan cs).map Piece.source).flatten = cs := by
  fun_induction scan cs with
  | case1 => rfl
  | case2 c cs hm t rest h ih => simp [Piece.source, ih, ← readToken_eq h]
  | case3 c cs hm h ih => simp [Piece.source, ih]
  | case4 c cs hm ih => simp [Piece.source, ih]

/-- Whether a `|` stands somewhere behind the first marker. -/
def carriesMacros (cs : List Char) : Bool :=
  match cs.dropWhile (!isMarker ·) with
  | [] => false
  | _ :: rest => rest.contains '|'

/-- The pieces of a text, all plain when it carries no macro. -/
def pieces (cs : List Char) : List Piece :=
  if carriesMacros cs then scan cs else cs.map .plain

theorem flatten_pieces (cs : List Char) : ((pieces cs).map Piece.source).flatten = cs := by
  unfold pieces
  split
  · exact flatten_scan cs
  · induction cs with
    | nil => rfl
    | cons c cs ih =>
      simp only [List.map_cons, List.flatten_cons, Piece.source]
      simp [Function.comp_def, Piece.source, ← List.flatMap_def]

/-- The tokens of a text, leftmost first. -/
def tokenize (s : String) : List Token :=
  (pieces s.toList).filterMap Piece.token?

/-! ## Positions

Offsets are counted in bytes of UTF-8, columns in characters since the last line feed.
-/

/-- Each token with the place where it starts, counted by `size` from `start` on. -/
def locate (size : List Char → Nat) : (start : Nat) → List Piece → List (Nat × Token)
  | _, [] => []
  | start, .plain c :: ps => locate size (start + size [c]) ps
  | start, .token t :: ps => (start, t) :: locate size (start + size t.source) ps

/-- The column after a text that starts at column `col`. -/
def advance (col : Nat) (cs : List Char) : Nat :=
  cs.foldl (fun n c => if c = '\n' then 0 else n + 1) col

end Stencil
