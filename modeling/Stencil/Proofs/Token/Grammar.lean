import Stencil.Proofs.Token.Segment
import Stencil.Text.Utf8

/-!
# The grammar of tokens

The three forms of a call are described by how they are spelled behind a marker: `IsDirectiveAt`,
`IsPipeAt` and `IsParenAt`. `readToken_eq_some_iff` says that reading a token at a marker finds
exactly these, and `mem_locate_scan` that a scan finds the calls that begin outside all earlier
ones, so that the leftmost call wins. Nothing is a token in a text in which no `|` stands behind a
marker.
-/

namespace Stencil

/-! ## Calls -/

/-- The forms of a call. -/
inductive Form where
  | pipe
  | paren
  | directive
deriving DecidableEq, Repr

/-- The form in which a token calls its trigger. -/
def Token.form (t : Token) : Form :=
  match t.call with
  | .pipe _ => .pipe
  | .paren _ _ => .paren
  | .directive _ _ => .directive

/-- The spelling of a name: ASCII letters and digits, `_` and `-`, at least one. -/
def IsName (n : List Char) : Prop := n ≠ [] ∧ ∀ c ∈ n, isNameChar c = true

/-- Behind the marker `m`, `cs` begins with a directive: `<` or `!`, a terminated guard, and all
that follows as the payload; `t` is that directive. -/
def IsDirectiveAt (m : Char) (cs : List Char) (t : Token) : Prop :=
  ∃ d u payload, (d = '<' ∨ d = '!') ∧ IsBody u ∧ cs = d :: '|' :: (u ++ '|' :: payload) ∧
    t.form = .directive ∧ t.name = String.ofList [d] ∧
    t.params = [String.ofList (unescape u), String.ofList payload] ∧
    t.head = m :: d :: '|' :: (u ++ ['|']) ∧ t.source = m :: cs

/-- Behind the marker `m`, `cs` begins with a name and a `|`, and as many parameters follow as
`us` has members; `t` is that call. -/
def IsPipeAt (m : Char) (cs : List Char) (t : Token) : Prop :=
  ∃ (n : List Char) (us : List (List Char)) (rest : List Char),
    IsName n ∧ (∀ u ∈ us, IsParam u) ∧ ¬ BeginsParam rest ∧
    cs = n ++ '|' :: (us.flatMap (· ++ ['|']) ++ rest) ∧
    t.form = .pipe ∧ t.name = Text.upper (String.ofList n) ∧
    t.params = us.map (fun u => String.ofList (unescape u)) ∧
    t.head = m :: n ++ ['|'] ∧ t.source = t.head ++ us.flatMap (· ++ ['|'])

/-- Behind the marker `m`, `cs` begins with a name and a parenthesis that is closed; `t` is that
call, which takes in a `|` that stands directly behind. -/
def IsParenAt (m : Char) (cs : List Char) (t : Token) : Prop :=
  ∃ n inner rest, IsName n ∧ ')' ∉ inner ∧ cs = n ++ '(' :: (inner ++ ')' :: rest) ∧
    t.form = .paren ∧ t.name = Text.upper (String.ofList n) ∧
    t.params = (if inner.all Text.isBlank then []
      else (inner.splitOn ',').map fun p => Text.trim (String.ofList p)) ∧
    t.head = m :: n ++ '(' :: (inner ++ ')' :: (if rest.head? = some '|' then ['|'] else [])) ∧
    t.source = t.head

/-- `t` is the call that begins with the marker `m` in front of `cs`. -/
def IsCallAt (m : Char) (cs : List Char) (t : Token) : Prop :=
  IsDirectiveAt m cs t ∨ IsPipeAt m cs t ∨ IsParenAt m cs t

/-! ## A call and its token -/

theorem flatten_map_segment {us : List (List Char)} (hus : ∀ u ∈ us, IsParam u) :
    ((us.map unescape).map Token.segment).flatten = us.flatMap (· ++ ['|']) := by
  rw [List.map_map, List.flatMap_def]
  exact congrArg List.flatten (List.map_congr_left fun u hu => segment_unescape (hus u hu).1)

theorem upper_directiveName {d : Char} (hd : d = '<' ∨ d = '!') :
    Text.upper (String.ofList [d]) = String.ofList [d] := by
  rcases hd with rfl | rfl <;> rfl

/-- What is spelled as a directive is described by the token with its parts. -/
theorem isDirectiveAt_mk {m d : Char} {u payload : List Char} (hd : d = '<' ∨ d = '!')
    (hu : IsBody u) :
    IsDirectiveAt m (d :: '|' :: (u ++ '|' :: payload))
      ⟨m, [d], .directive (unescape u) payload⟩ := by
  refine ⟨d, u, payload, hd, hu, rfl, rfl, upper_directiveName hd, rfl, ?_, ?_⟩
  · simp [Token.head, segment_unescape hu]
  · simp [Token.source, Token.head, Token.tail, segment_unescape hu]

/-- What is spelled as a pipe call is described by the token with its parts. -/
theorem isPipeAt_mk {m : Char} {n : List Char} {us : List (List Char)} {rest : List Char}
    (hn : IsName n) (hus : ∀ u ∈ us, IsParam u) (hmax : ¬ BeginsParam rest) :
    IsPipeAt m (n ++ '|' :: (us.flatMap (· ++ ['|']) ++ rest))
      ⟨m, n, .pipe (us.map unescape)⟩ := by
  refine ⟨n, us, rest, hn, hus, hmax, rfl, rfl, rfl, ?_, rfl, ?_⟩
  · simp [Token.params]
  · rw [Token.source, Token.tail, flatten_map_segment hus]

/-- What is spelled as a parenthesised call is described by the token with its parts. -/
theorem isParenAt_mk {m : Char} {n inner rest : List Char} (hn : IsName n) (hi : ')' ∉ inner) :
    IsParenAt m (n ++ '(' :: (inner ++ ')' :: rest))
      ⟨m, n, .paren inner (rest.head? = some '|')⟩ := by
  refine ⟨n, inner, rest, hn, hi, rfl, rfl, rfl, ?_, ?_, ?_⟩
  · simp only [Token.params, Token.parenParams]
    split
    · rfl
    · simp [Text.trim, Function.comp_def]
  · simp [Token.head]
  · simp [Token.source, Token.tail]

theorem map_ofList_inj {us vs : List (List Char)}
    (h : us.map String.ofList = vs.map String.ofList) : us = vs := by
  simpa [Function.comp_def] using congrArg (List.map String.toList) h

/-- A directive is the token with its name, its guard and its payload. -/
theorem IsDirectiveAt.eq {m d : Char} {u payload : List Char} {t : Token}
    (hu : IsBody u) (hform : t.form = .directive)
    (hparams : t.params = [String.ofList (unescape u), String.ofList payload])
    (hhead : t.head = m :: d :: '|' :: (u ++ ['|'])) :
    t = ⟨m, [d], .directive (unescape u) payload⟩ := by
  obtain ⟨marker, spelled, call⟩ := t
  cases call with
  | pipe => cases hform
  | paren => cases hform
  | directive guard rest =>
    simp only [Token.params, List.cons.injEq, String.ofList_inj, and_true] at hparams
    obtain ⟨rfl, rfl⟩ := hparams
    simp only [Token.head, segment_unescape hu, List.cons_append, List.cons.injEq] at hhead
    obtain ⟨rfl, hspelled⟩ := hhead
    have : spelled ++ ('|' :: (u ++ ['|'])) = [d] ++ ('|' :: (u ++ ['|'])) := hspelled
    rw [List.append_cancel_right this]

/-- A pipe call is the token with its name and its parameters. -/
theorem IsPipeAt.eq {m : Char} {n : List Char} {us : List (List Char)} {t : Token}
    (hform : t.form = .pipe) (hparams : t.params = us.map (fun u => String.ofList (unescape u)))
    (hhead : t.head = m :: n ++ ['|']) : t = ⟨m, n, .pipe (us.map unescape)⟩ := by
  obtain ⟨marker, spelled, call⟩ := t
  cases call with
  | paren => cases hform
  | directive => cases hform
  | pipe ps =>
    have hps : ps = us.map unescape :=
      map_ofList_inj (by simpa [Token.params, Function.comp_def] using hparams)
    simp only [Token.head, List.cons_append, List.cons.injEq] at hhead
    rw [hps, hhead.1, List.append_cancel_right hhead.2]

/-- A parenthesised call is the token with its name and what stands in the parentheses. -/
theorem IsParenAt.eq {m : Char} {n inner : List Char} {closed : Bool} {t : Token}
    (hform : t.form = .paren) (hname : t.name = Text.upper (String.ofList n))
    (hhead : t.head = m :: n ++ '(' :: (inner ++ ')' :: (if closed then ['|'] else []))) :
    t = ⟨m, n, .paren inner closed⟩ := by
  obtain ⟨marker, spelled, call⟩ := t
  cases call with
  | pipe => cases hform
  | directive => cases hform
  | paren inner' closed' =>
    simp only [Token.head, List.cons_append, List.cons.injEq] at hhead
    obtain ⟨rfl, hhead⟩ := hhead
    have hlength : spelled.length = n.length := by
      simpa [Token.name] using congrArg (fun s : String => s.toList.length) hname
    obtain ⟨rfl, hrest⟩ := List.append_inj hhead hlength
    simp only [List.cons.injEq, true_and] at hrest
    -- the last character tells whether a `|` belongs to the call
    have hlast := congrArg List.getLast? hrest
    have hclosed : closed' = closed := by
      cases closed <;> cases closed' <;> simp [List.getLast?_append] at hlast ⊢
    subst hclosed
    rw [List.append_cancel_right hrest]

/-! ## Reading a call -/

/-- Where the first character that fails `p` stands. -/
theorem dropWhile_eq_cons_iff {p : Char → Bool} {cs rest : List Char} {c : Char} :
    cs.dropWhile p = c :: rest ↔
      cs = cs.takeWhile p ++ c :: rest ∧ (∀ d ∈ cs.takeWhile p, p d = true) ∧ p c = false := by
  constructor
  · intro h
    refine ⟨by rw [← h, List.takeWhile_append_dropWhile], List.all_eq_true.1 List.all_takeWhile, ?_⟩
    simpa [h] using List.head?_dropWhile_not p cs
  · rintro ⟨hcs, hall, hc⟩
    rw [hcs, List.dropWhile_append_of_pos hall, List.dropWhile_cons_of_neg (by simp [hc])]

/-- A text cut at the first character that fails `p`. -/
theorem takeWhile_append_cons {p : Char → Bool} {pre rest : List Char} {c : Char}
    (hpre : ∀ d ∈ pre, p d = true) (hc : p c = false) :
    (pre ++ c :: rest).takeWhile p = pre ∧ (pre ++ c :: rest).dropWhile p = c :: rest := by
  rw [List.takeWhile_append_of_pos hpre, List.dropWhile_append_of_pos hpre]
  simp [hc]

/-- A name ends at a character that belongs to none. -/
theorem cut_name {n : List Char} {x : Char} (hn : IsName n) (hx : isNameChar x = false)
    (rest : List Char) : (n ++ x :: rest).takeWhile isNameChar = n ∧
      (n ++ x :: rest).dropWhile isNameChar = x :: rest :=
  takeWhile_append_cons hn.2 hx

/-- Reading a directive finds what is spelled as one. -/
theorem readDirective_eq_some_iff {m : Char} {cs rest : List Char} {t : Token} :
    readDirective m cs = some (t, rest) ↔ rest = [] ∧ IsDirectiveAt m cs t := by
  constructor
  · intro h
    unfold readDirective at h
    split at h
    · next d cs =>
      split at h
      · next hd =>
        obtain ⟨⟨v, payload⟩, hr, he⟩ := Option.map_eq_some_iff.1 h
        cases he
        obtain ⟨u, rfl, hu, rfl, -⟩ := readSegment_eq_some_iff.1 hr
        exact ⟨rfl, isDirectiveAt_mk (by simpa [isDirectiveName] using hd) hu⟩
      · cases h
    · cases h
  · rintro ⟨rfl, d, u, payload, hd, hu, rfl, hform, -, hparams, hhead, -⟩
    obtain rfl := IsDirectiveAt.eq hu hform hparams hhead
    have hr : readSegment false (u ++ '|' :: payload) = some (unescape u, payload) :=
      readSegment_eq_some_iff.2 ⟨u, rfl, hu, rfl, nofun⟩
    have hd : isDirectiveName d = true := by simpa [isDirectiveName] using hd
    simp [readDirective, hd, hr]

/-- What is read as a named call is spelled as one. -/
theorem isNamedAt_of_readNamed {m : Char} {cs rest : List Char} {t : Token}
    (h : readNamed m cs = some (t, rest)) : IsPipeAt m cs t ∨ IsParenAt m cs t := by
  unfold readNamed at h
  split at h
  · cases h
  · next hne =>
    have hn : cs.takeWhile isNameChar ≠ [] := by simpa using hne
    split at h
    · next r hr =>
      obtain ⟨hcs, hall, -⟩ := dropWhile_eq_cons_iff.1 hr
      obtain ⟨us, hus, hparam, hvs, hmax⟩ := readSegments_eq_iff.1 (Eq.refl (readSegments r))
      cases h
      have hpipe : IsPipeAt m _ _ := isPipeAt_mk ⟨hn, hall⟩ hparam hmax
      rw [← hus, ← hcs, ← hvs] at hpipe
      exact .inl hpipe
    · next r hr =>
      obtain ⟨hcs, hall, -⟩ := dropWhile_eq_cons_iff.1 hr
      have hparen : ∀ {after}, r = r.takeWhile (· != ')') ++ ')' :: after →
          IsParenAt m cs ⟨m, cs.takeWhile isNameChar,
            .paren (r.takeWhile (· != ')')) (after.head? = some '|')⟩ := by
        intro after hr
        have hi : ')' ∉ r.takeWhile (· != ')') := fun hmem => by
          simpa using List.all_eq_true.1 List.all_takeWhile _ hmem
        have : IsParenAt m (_ ++ '(' :: (_ ++ ')' :: after)) _ := isParenAt_mk ⟨hn, hall⟩ hi
        rwa [← hr, ← hcs] at this
      split at h
      · cases h
      · next p after hd =>
        obtain ⟨hr, -, hp⟩ := dropWhile_eq_cons_iff.1 hd
        obtain rfl : p = ')' := by simpa using hp
        cases h
        exact .inr (hparen hr)
      · next p after hnot hd =>
        obtain ⟨hr, -, hp⟩ := dropWhile_eq_cons_iff.1 hd
        obtain rfl : p = ')' := by simpa using hp
        cases h
        have hhead : rest.head? ≠ some '|' := fun hbar => by
          obtain ⟨after, rfl⟩ := List.head?_eq_some_iff.1 hbar
          exact hnot after rfl
        have := hparen hr
        rw [decide_eq_false hhead] at this
        exact .inr this
    · cases h

/-- What is spelled as a pipe call is read. -/
theorem IsPipeAt.readNamed_eq {m : Char} {cs rest : List Char} {t : Token} (h : IsPipeAt m cs t)
    (hsource : m :: cs = t.source ++ rest) : readNamed m cs = some (t, rest) := by
  obtain ⟨n, us, after, hn, hus, hmax, rfl, hform, -, hparams, hhead, -⟩ := h
  obtain rfl := IsPipeAt.eq hform hparams hhead
  obtain ⟨htake, hdrop⟩ := cut_name hn (show isNameChar '|' = false from rfl)
    (us.flatMap (· ++ ['|']) ++ after)
  have hsegs := readSegments_eq_iff.2 ⟨us, rfl, hus, rfl, hmax⟩
  have hrest : rest = after := by
    rw [Token.source, Token.tail, flatten_map_segment hus] at hsource
    simpa [Token.head] using hsource.symm
  simp [readNamed, htake, hdrop, hn.1, hsegs, hrest]

/-- What is spelled as a parenthesised call is read. -/
theorem IsParenAt.readNamed_eq {m : Char} {cs rest : List Char} {t : Token} (h : IsParenAt m cs t)
    (hsource : m :: cs = t.source ++ rest) : readNamed m cs = some (t, rest) := by
  obtain ⟨n, inner, after, hn, hi, rfl, hform, hname, -, hhead, -⟩ := h
  have hclosed : t = ⟨m, n, .paren inner (after.head? = some '|')⟩ :=
    IsParenAt.eq hform hname (by simpa using hhead)
  subst hclosed
  obtain ⟨htake, hdrop⟩ := cut_name hn (show isNameChar '(' = false from rfl)
    (inner ++ ')' :: after)
  have hinner : (inner ++ ')' :: after).takeWhile (· != ')') = inner ∧
      (inner ++ ')' :: after).dropWhile (· != ')') = ')' :: after :=
    takeWhile_append_cons (fun d hd => by simpa using fun h : d = ')' => hi (h ▸ hd)) (by simp)
  unfold readNamed
  cases after with
  | nil =>
    obtain rfl : rest = [] := by
      simpa [Token.source, Token.head, Token.tail] using hsource.symm
    simp [htake, hdrop, hn.1, hinner]
  | cons c after =>
    by_cases hc : c = '|'
    · subst hc
      obtain rfl : rest = after := by
        simpa [Token.source, Token.head, Token.tail] using hsource.symm
      simp [htake, hdrop, hn.1, hinner]
    · obtain rfl : rest = c :: after := by
        simpa [Token.source, Token.head, Token.tail, hc] using hsource.symm
      simp [htake, hdrop, hn.1, hinner, hc]

/-- Reading a named call finds what is spelled as one. -/
theorem readNamed_eq_some_iff {m : Char} {cs rest : List Char} {t : Token} :
    readNamed m cs = some (t, rest) ↔
      m :: cs = t.source ++ rest ∧ (IsPipeAt m cs t ∨ IsParenAt m cs t) := by
  constructor
  · intro h
    exact ⟨readNamed_eq h, isNamedAt_of_readNamed h⟩
  · rintro ⟨hsource, h | h⟩
    · exact h.readNamed_eq hsource
    · exact h.readNamed_eq hsource

/-- A named call does not begin as a directive does. -/
theorem readDirective_name_append (m : Char) {n : List Char} (hn : IsName n) (rest : List Char) :
    readDirective m (n ++ rest) = none := by
  refine Option.eq_none_iff_forall_ne_some.2 fun ⟨t, r⟩ h => ?_
  obtain ⟨-, d, u, payload, hd, -, hcs, -⟩ := readDirective_eq_some_iff.1 h
  cases n with
  | nil => exact hn.1 rfl
  | cons c n =>
    have hname : isNameChar c = true := hn.2 c (by simp)
    obtain rfl : c = d := (List.cons.inj hcs).1
    rcases hd with rfl | rfl <;> exact absurd hname (by decide)

/-- Reading a token finds what is spelled as a call. -/
theorem readToken_eq_some_iff {m : Char} {cs rest : List Char} {t : Token} :
    readToken m cs = some (t, rest) ↔ m :: cs = t.source ++ rest ∧ IsCallAt m cs t := by
  unfold readToken
  rw [Option.or_eq_some_iff, readDirective_eq_some_iff, readNamed_eq_some_iff]
  constructor
  · rintro (⟨rfl, h⟩ | ⟨-, hsource, h⟩)
    · obtain ⟨-, -, -, -, -, -, -, -, -, -, hsource⟩ := id h
      exact ⟨by simp [hsource], .inl h⟩
    · exact ⟨hsource, .inr h⟩
  · rintro ⟨hsource, h | h⟩
    · obtain ⟨-, -, -, -, -, -, -, -, -, -, hwhole⟩ := id h
      exact .inl ⟨by simpa [hwhole] using hsource.symm, h⟩
    · refine .inr ⟨?_, hsource, h⟩
      rcases h with ⟨n, us, after, hn, -, -, rfl, -⟩ | ⟨n, inner, after, hn, -, rfl, -⟩
      · exact readDirective_name_append m hn _
      · exact readDirective_name_append m hn _

/-- A call spells its token, and something follows it. -/
theorem IsCallAt.source_append {m : Char} {cs : List Char} {t : Token} (h : IsCallAt m cs t) :
    ∃ rest, m :: cs = t.source ++ rest := by
  rcases h with ⟨-, -, -, -, -, -, -, -, -, -, hsource⟩ |
    ⟨n, us, rest, -, -, -, rfl, -, -, -, hhead, hsource⟩ |
    ⟨n, inner, rest, -, -, rfl, -, -, -, hhead, hsource⟩
  · exact ⟨[], by simp [hsource]⟩
  · exact ⟨rest, by simp [hsource, hhead]⟩
  · refine ⟨if rest.head? = some '|' then rest.tail else rest, ?_⟩
    cases rest with
    | nil => simp [hsource, hhead]
    | cons c rest => by_cases hc : c = '|' <;> simp [hsource, hhead, hc]

/-- A marker begins one call at most: the forms exclude each other, and each is read in one way. -/
theorem IsCallAt.unique {m : Char} {cs : List Char} {t u : Token} (ht : IsCallAt m cs t)
    (hu : IsCallAt m cs u) : t = u := by
  obtain ⟨rest, hrest⟩ := ht.source_append
  obtain ⟨rest', hrest'⟩ := hu.source_append
  have hread := readToken_eq_some_iff.2 ⟨hrest, ht⟩
  rw [readToken_eq_some_iff.2 ⟨hrest', hu⟩] at hread
  cases hread
  rfl

/-! ## Tokens in a text -/

/-- A `|` stands somewhere behind a marker. -/
def HasMacro (cs : List Char) : Prop :=
  ∃ pre m rest, cs = pre ++ m :: rest ∧ isMarker m = true ∧ '|' ∈ rest

/-- The call `t` begins at the byte offset `p` of a text. -/
def BeginsAt (cs : List Char) (p : Nat) (t : Token) : Prop :=
  ∃ pre m rest, cs = pre ++ m :: rest ∧ Text.byteSize pre = p ∧ isMarker m = true ∧
    IsCallAt m rest t

/-- The offset `p` lies behind every token that begins before it. -/
def Outside (ts : List (Nat × Token)) (p : Nat) : Prop :=
  ∀ q u, (q, u) ∈ ts → q < p → q + Text.byteSize u.source ≤ p

/-- The tokens of a text with the byte offsets at which they begin. -/
def located (s : String) : List (Nat × Token) := locate Text.byteSize 0 (pieces s.toList)

/-- A text carries macros where a `|` stands behind some marker, not only behind the first. -/
theorem carriesMacros_iff {cs : List Char} : carriesMacros cs = true ↔ HasMacro cs := by
  unfold carriesMacros
  constructor
  · intro h
    split at h
    · cases h
    · next m rest hd =>
      obtain ⟨hcs, -, hm⟩ := dropWhile_eq_cons_iff.1 hd
      exact ⟨_, m, rest, hcs, by simpa using hm, by simpa using h⟩
  · rintro ⟨pre, m, rest, rfl, hm, hbar⟩
    induction pre with
    | nil => simp [hm, hbar]
    | cons c pre ih =>
      by_cases hc : isMarker c
      · simp [hc, hbar]
      · simpa [hc] using ih

theorem byteSize_pos {cs : List Char} (h : cs ≠ []) : 0 < Text.byteSize cs := by
  cases cs with
  | nil => exact absurd rfl h
  | cons c cs =>
    have := c.utf8Size_pos
    simp only [Text.byteSize_cons]
    omega

/-- Two beginnings of one text: the shorter one begins the longer one. -/
theorem prefix_of_byteSize_le {pre src rest cs : List Char} (h : pre ++ cs = src ++ rest)
    (hle : Text.byteSize src ≤ Text.byteSize pre) : ∃ mid, pre = src ++ mid ∧ rest = mid ++ cs := by
  rcases List.append_eq_append_iff.1 h with ⟨mid, rfl, rfl⟩ | ⟨mid, rfl, rfl⟩
  · cases mid with
    | nil => exact ⟨[], by simp, by simp⟩
    | cons c mid =>
      have := byteSize_pos (List.cons_ne_nil c mid)
      rw [Text.byteSize_append] at hle
      omega
  · exact ⟨mid, rfl, rfl⟩

/-- Tokens are located in order, each behind the whole of those before it. -/
theorem locate_ordered (size : List Char → Nat) (start : Nat) (ps : List Piece) :
    (∀ x ∈ locate size start ps, start ≤ x.1) ∧
      (locate size start ps).Pairwise fun x y => x.1 + size x.2.source ≤ y.1 := by
  induction ps generalizing start with
  | nil => exact ⟨nofun, .nil⟩
  | cons x ps ih =>
    cases x with
    | plain c =>
      obtain ⟨hge, hpair⟩ := ih (start + size [c])
      exact ⟨fun y hy => Nat.le_trans (Nat.le_add_right _ _) (hge y hy), hpair⟩
    | token u =>
      obtain ⟨hge, hpair⟩ := ih (start + size u.source)
      refine ⟨fun y hy => ?_, .cons hge hpair⟩
      rcases List.mem_cons.1 hy with rfl | hy
      · exact Nat.le_refl _
      · exact Nat.le_trans (Nat.le_add_right _ _) (hge y hy)

theorem map_locate (size : List Char → Nat) (start : Nat) (ps : List Piece) :
    (locate size start ps).map (·.2) = ps.filterMap Piece.token? := by
  induction ps generalizing start with
  | nil => rfl
  | cons x ps ih => cases x <;> simp [locate, Piece.token?, List.filterMap_cons, ih]

/-- A call at the very beginning of a text is the token read there. -/
theorem beginsAt_zero {m : Char} {cs : List Char} {t : Token} :
    BeginsAt (m :: cs) 0 t ↔ isMarker m = true ∧ ∃ rest, readToken m cs = some (t, rest) := by
  constructor
  · rintro ⟨pre, m', cs', hcs, hsize, hm, hcall⟩
    cases pre with
    | cons c pre =>
      have := byteSize_pos (List.cons_ne_nil c pre)
      omega
    | nil =>
      obtain ⟨rfl, rfl⟩ := List.cons.inj hcs
      obtain ⟨rest, hsource⟩ := hcall.source_append
      exact ⟨hm, rest, readToken_eq_some_iff.2 ⟨hsource, hcall⟩⟩
  · rintro ⟨hm, rest, hread⟩
    exact ⟨[], m, cs, rfl, rfl, hm, (readToken_eq_some_iff.1 hread).2⟩

/-- A call further on in a text, seen from behind a part of the text. -/
theorem beginsAt_append {src rest : List Char} {o : Nat} {t : Token} :
    BeginsAt (src ++ rest) (Text.byteSize src + o) t ↔ BeginsAt rest o t := by
  constructor
  · rintro ⟨pre, m, cs, hcs, hsize, hm, hcall⟩
    obtain ⟨mid, rfl, rfl⟩ := prefix_of_byteSize_le hcs.symm (by omega)
    rw [Text.byteSize_append] at hsize
    exact ⟨mid, m, cs, rfl, by omega, hm, hcall⟩
  · rintro ⟨pre, m, cs, rfl, rfl, hm, hcall⟩
    exact ⟨src ++ pre, m, cs, by simp, by simp, hm, hcall⟩

/-- A call further on in a text, seen from behind the character in front. -/
theorem beginsAt_cons {c : Char} {cs : List Char} {o : Nat} {t : Token} :
    BeginsAt (c :: cs) (Text.byteSize [c] + o) t ↔ BeginsAt cs o t :=
  @beginsAt_append [c] cs o t

/-- An offset behind a first token lies outside the tokens that follow it, where it lies outside
all. -/
theorem outside_cons {ts : List (Nat × Token)} {start p : Nat} {u : Token}
    (hp : start < p) : Outside ((start, u) :: ts) p ↔
      start + Text.byteSize u.source ≤ p ∧ Outside ts p := by
  constructor
  · intro h
    exact ⟨h start u List.mem_cons_self hp, fun q v hv => h q v (List.mem_cons_of_mem _ hv)⟩
  · rintro ⟨hu, hts⟩ q v hv hq
    rcases List.mem_cons.1 hv with hv | hv
    · cases hv
      exact hu
    · exact hts q v hv hq

/-- Where no call begins with the first character, the calls of a text are those behind it. -/
theorem exists_beginsAt_cons {c : Char} {cs : List Char} {start p : Nat} {t : Token}
    {P : Prop} (hnone : ¬ BeginsAt (c :: cs) 0 t) :
    (∃ o, p = start + o ∧ BeginsAt (c :: cs) o t ∧ P) ↔
      ∃ o, p = start + Text.byteSize [c] + o ∧ BeginsAt cs o t ∧ P := by
  constructor
  · rintro ⟨o, rfl, hbegins, hP⟩
    obtain ⟨pre, m, rest, hcs, hsize, hm, hcall⟩ := id hbegins
    cases pre with
    | nil =>
      obtain rfl : o = 0 := hsize.symm
      exact absurd hbegins hnone
    | cons d pre =>
      obtain ⟨rfl, rfl⟩ := List.cons.inj hcs
      refine ⟨Text.byteSize pre, ?_, ⟨pre, m, rest, rfl, rfl, hm, hcall⟩, hP⟩
      rw [Text.byteSize_cons] at hsize
      simp only [Text.byteSize_cons, Text.byteSize_nil]
      omega
  · rintro ⟨o, rfl, hbegins, hP⟩
    exact ⟨Text.byteSize [c] + o, by omega, beginsAt_cons.2 hbegins, hP⟩

/-- The scan finds a token where a call begins outside the tokens found before. -/
theorem mem_locate_scan {cs : List Char} {start p : Nat} {t : Token} :
    (p, t) ∈ locate Text.byteSize start (scan cs) ↔
      ∃ o, p = start + o ∧ BeginsAt cs o t ∧ Outside (locate Text.byteSize start (scan cs)) p := by
  fun_induction scan cs generalizing start with
  | case1 =>
    constructor
    · intro h
      cases h
    · rintro ⟨o, -, ⟨pre, m, rest, hcs, -⟩, -⟩
      cases pre <;> cases hcs
  | case2 c cs hm u rest hread ih =>
    have hsource := readToken_eq hread
    have hpos : 0 < Text.byteSize u.source := byteSize_pos u.source_ne_nil
    rw [locate, List.mem_cons, ih]
    constructor
    · rintro (h | ⟨o, rfl, hbegins, hout⟩)
      · cases h
        refine ⟨0, rfl, beginsAt_zero.2 ⟨hm, rest, hread⟩, fun q v hv hq => ?_⟩
        -- no token stands in front of the first one
        rcases List.mem_cons.1 hv with hv | hv
        · cases hv
          omega
        · have := (locate_ordered _ _ _).1 _ hv
          simp only at this
          omega
      · refine ⟨Text.byteSize u.source + o, by omega, ?_,
          (outside_cons (by omega)).2 ⟨by omega, hout⟩⟩
        rw [hsource]
        exact beginsAt_append.2 hbegins
    · rintro ⟨o, rfl, hbegins, hout⟩
      cases o with
      | zero =>
        obtain ⟨-, rest', hread'⟩ := beginsAt_zero.1 hbegins
        rw [hread] at hread'
        cases hread'
        exact .inl rfl
      | succ o =>
        obtain ⟨hle, hout⟩ := (outside_cons (by omega)).1 hout
        refine .inr ⟨o + 1 - Text.byteSize u.source, by omega, ?_, hout⟩
        have ho : o + 1 = Text.byteSize u.source + (o + 1 - Text.byteSize u.source) := by omega
        rw [hsource, ho] at hbegins
        exact beginsAt_append.1 hbegins
  | case3 c cs hm hread ih =>
    rw [locate, ih, exists_beginsAt_cons]
    rintro h
    obtain ⟨-, rest, hread'⟩ := beginsAt_zero.1 h
    rw [hread] at hread'
    cases hread'
  | case4 c cs hm ih =>
    rw [locate, ih, exists_beginsAt_cons]
    exact fun h => hm (beginsAt_zero.1 h).1

/-- Without a `|` behind a marker, all of a text is plain. -/
theorem pieces_of_not_hasMacro {cs : List Char} (h : ¬ HasMacro cs) :
    pieces cs = cs.map .plain := by
  rw [pieces, if_neg fun hc => h (carriesMacros_iff.1 hc)]

/-- Plain characters hold no token. -/
theorem filterMap_plain (cs : List Char) : (cs.map Piece.plain).filterMap Piece.token? = [] := by
  simp [List.filterMap_eq_nil_iff, Piece.token?]

/-- **The tokens of a text are its leftmost calls.** They stand in order and do not overlap. There
is none in a text that has no `|` behind a marker; in any other there is one exactly where a marker
outside all earlier tokens begins a call, and it is the token of that call. -/
theorem tokenize_leftmost_calls (s : String) :
    tokenize s = (located s).map (·.2) ∧
      (located s).Pairwise (fun x y => x.1 + Text.byteSize x.2.source ≤ y.1) ∧
      (¬ HasMacro s.toList → tokenize s = []) ∧
      ∀ p t, (p, t) ∈ located s ↔
        HasMacro s.toList ∧ BeginsAt s.toList p t ∧ Outside (located s) p := by
  refine ⟨(map_locate _ _ _).symm, (locate_ordered _ _ _).2, fun hnone => ?_, fun p t => ?_⟩
  · rw [tokenize, pieces_of_not_hasMacro hnone, filterMap_plain]
  · by_cases hbehind : HasMacro s.toList
    · have hlocated : located s = locate Text.byteSize 0 (scan s.toList) := by
        rw [located, pieces, if_pos (carriesMacros_iff.2 hbehind)]
      rw [hlocated, mem_locate_scan]
      simp [hbehind]
    · have hlocated : (located s).map (·.2) = [] := by
        rw [located, map_locate, pieces_of_not_hasMacro hbehind, filterMap_plain]
      simp [List.map_eq_nil_iff.1 hlocated, hbehind]

end Stencil
