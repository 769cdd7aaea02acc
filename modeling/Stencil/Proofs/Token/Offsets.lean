import Stencil.Proofs.Token.RoundTrip
import Stencil.Proofs.Token.Slice

/-!
# Reading tokens by byte offsets

The tokens of a text can also be found by offsets into its bytes: reading then goes from one offset
to the next and looks at the text through slices only. `spannedTokens` is such a reader. It fails
where it asks for a slice that is none, which it never does; it finds the tokens that a scan of the
characters finds, with the spans that follow from their spelling (`spannedTokens_eq`).
-/

namespace Stencil

open Text (byteSize)

/-! ## Tokens with spans -/

/-- A token as it is found by offsets. -/
structure Spanned where
  form : Form
  name : String
  params : List String
  /-- From the marker to what terminates the name. -/
  head : Span
  /-- Where each parameter behind the head ends, its terminator included. For a directive, whose
  guard belongs to the head, these are the ends of the guard and of the payload. -/
  ends : List Nat
deriving DecidableEq, Repr

/-- The span of the whole token. -/
def Spanned.full (t : Spanned) : Span := ⟨t.head.start, t.ends.getLast?.getD t.head.stop⟩

/-- Where each of the texts ends that stand one after the other from an offset on. -/
def endsFrom : (start : Nat) → List (List Char) → List Nat
  | _, [] => []
  | start, cs :: rest => (start + byteSize cs) :: endsFrom (start + byteSize cs) rest

/-- The token with the spans that it has when it begins at an offset. -/
def Token.spanned (t : Token) (start : Nat) : Spanned where
  form := t.form
  name := t.name
  params := t.params
  head := ⟨start, start + byteSize t.head⟩
  ends :=
    match t.call with
    | .pipe _ => endsFrom (start + byteSize t.head) t.tail
    | .paren _ _ => []
    | .directive _ payload =>
      [start + byteSize t.head, start + byteSize t.head + byteSize payload]

/-! ## The reader

Its functions give `none` where a slice is asked for that is none. What they find is optional in
turn where a text may be no token.
-/

/-- The segment at the beginning of a text that stands at the offset `start`, unescaped, and the
offset behind its terminator. -/
def segmentFrom (stop : Bool) : (start : Nat) → List Char → Option (List Char × Nat)
  | _, [] => none
  | start, '\\' :: '|' :: cs => (segmentFrom stop (start + 2) cs).map fun r => ('|' :: r.1, r.2)
  | start, c :: cs =>
    if c = '|' then some ([], start + 1)
    else if stop && isMarker c then none
    else (segmentFrom stop (start + c.utf8Size) cs).map fun r => (c :: r.1, r.2)

theorem byteSize_segment_cons (c : Char) (v : List Char) : byteSize (Token.segment (c :: v)) =
    (if c = '|' then 2 else c.utf8Size) + byteSize (Token.segment v) := by
  simp only [Token.segment, escape_cons, Text.byteSize_append, Nat.add_assoc]
  congr 1
  split <;> rfl

/-- The segment lies behind the offset by what it is spelled with. -/
theorem segmentFrom_eq (stop : Bool) (start : Nat) (cs : List Char) :
    segmentFrom stop start cs =
      (readSegment stop cs).map fun r => (r.1, start + byteSize (Token.segment r.1)) := by
  fun_induction segmentFrom stop start cs with
  | case1 => rfl
  | case2 start cs ih =>
    rw [readSegment, ih, Option.map_map, Option.map_map]
    refine congrArg (Option.map · _) (funext fun r => ?_)
    simp [byteSize_segment_cons, Nat.add_assoc]
  | case3 start cs hc =>
    rw [readSegment.eq_3 _ _ _ hc, if_pos rfl]
    rfl
  | case4 start c cs hc hne hstop =>
    rw [readSegment.eq_3 _ _ _ hc, if_neg hne, if_pos hstop]
    rfl
  | case5 start c cs hc hne hstop ih =>
    rw [readSegment.eq_3 _ _ _ hc, if_neg hne, if_neg hstop, ih, Option.map_map, Option.map_map]
    refine congrArg (Option.map · _) (funext fun r => ?_)
    simp [byteSize_segment_cons, hne, Nat.add_assoc]

theorem byteSize_segment_pos (v : List Char) : 0 < byteSize (Token.segment v) :=
  byteSize_pos (by simp [Token.segment])

/-- A segment that is found stops further on in the text. -/
theorem segmentFrom_progress {stop : Bool} {cs rest v : List Char} {start next : Nat}
    (hrest : slice? cs ⟨start, byteSize cs⟩ = some rest)
    (hsegment : segmentFrom stop start rest = some (v, next)) :
    start < next ∧ next ≤ byteSize cs := by
  rw [segmentFrom_eq] at hsegment
  obtain ⟨⟨w, after⟩, hread, heq⟩ := Option.map_eq_some_iff.1 hsegment
  cases heq
  obtain ⟨pre, rfl, rfl⟩ := slice?_end_eq_some_iff.1 hrest
  have := byteSize_segment_pos w
  rw [readSegment_eq hread]
  simp only [Text.byteSize_append]
  omega

/-- The parameters at an offset, as far as they go, and where each ends. -/
def paramsAt (cs : List Char) (start : Nat) : Option (List (List Char) × List Nat) :=
  match _hrest : slice? cs ⟨start, byteSize cs⟩ with
  | none => none
  | some rest =>
    match _hsegment : segmentFrom true start rest with
    | none => some ([], [])
    | some (v, next) => (paramsAt cs next).map fun r => (v :: r.1, next :: r.2)
termination_by byteSize cs - start
decreasing_by
  have := segmentFrom_progress _hrest _hsegment
  omega

/-- The directive that the marker at an offset opens. -/
def directiveAt (cs : List Char) (start : Nat) : Option (Option Spanned) := do
  let name ← slice? cs ⟨start + 1, start + 2⟩
  let rest ← slice? cs ⟨start + 3, byteSize cs⟩
  match segmentFrom false (start + 3) rest with
  | none => some none
  | some (guard, stop) => do
    let payload ← slice? cs ⟨stop, byteSize cs⟩
    some (some {
      form := .directive
      name := String.ofList name
      params := [String.ofList guard, String.ofList payload]
      head := ⟨start, stop⟩
      ends := [stop, byteSize cs] })

/-- The parenthesised call that the marker at an offset opens, with a name that ends at the
parenthesis at `stop`. -/
def parenAt (cs : List Char) (start : Nat) (name : List Char) (stop : Nat) :
    Option (Option Spanned) := do
  let rest ← slice? cs ⟨stop, byteSize cs⟩
  match rest.dropWhile (· != ')') with
  | [] => some none
  | _ :: _ => do
    let close := stop + byteSize (rest.takeWhile (· != ')'))
    let inner ← slice? cs ⟨stop + 1, close⟩
    let after ← slice? cs ⟨close + 1, byteSize cs⟩
    some (some {
      form := .paren
      name := Text.upper (String.ofList name)
      params := (Token.parenParams inner).map String.ofList
      head := ⟨start, close + if after.head? = some '|' then 2 else 1⟩
      ends := [] })

/-- The named call that the marker at an offset opens. -/
def namedAt (cs : List Char) (start : Nat) : Option (Option Spanned) := do
  let rest ← slice? cs ⟨start + 1, byteSize cs⟩
  let stop := start + 1 + byteSize (rest.takeWhile isNameChar)
  if (rest.takeWhile isNameChar).isEmpty then some none
  else do
    let name ← slice? cs ⟨start + 1, stop⟩
    let after ← slice? cs ⟨stop, byteSize cs⟩
    match after with
    | '|' :: _ => do
      let (params, ends) ← paramsAt cs (stop + 1)
      some (some {
        form := .pipe
        name := Text.upper (String.ofList name)
        params := params.map String.ofList
        head := ⟨start, stop + 1⟩
        ends })
    | '(' :: _ => parenAt cs start name stop
    | _ => some none

/-- Whether a text begins with the name of a directive and a `|`. -/
def beginsDirective : List Char → Bool
  | d :: '|' :: _ => isDirectiveName d
  | _ => false

/-- The token that the marker at an offset opens. -/
def callAt (cs : List Char) (start : Nat) : Option (Option Spanned) := do
  let rest ← slice? cs ⟨start + 1, byteSize cs⟩
  match ← (if beginsDirective rest then directiveAt cs start else some none) with
  | some t => some (some t)
  | none => namedAt cs start

/-! ## What the reader finds -/

variable {pre rest : List Char} {m : Char}

/-- Parameters are found where they are read. -/
theorem paramsAt_eq (pre rest : List Char) : paramsAt (pre ++ rest) (byteSize pre) =
    some ((readSegments rest).1,
      endsFrom (byteSize pre) ((readSegments rest).1.map Token.segment)) := by
  fun_induction readSegments rest generalizing pre with
  | case1 rest hread =>
    rw [paramsAt]
    split
    · next hslice => rw [slice?_append_end] at hslice; cases hslice
    · next rest' hslice =>
      rw [slice?_append_end] at hslice
      cases hslice
      split
      · rfl
      · next hsegment => rw [segmentFrom_eq, hread] at hsegment; cases hsegment
  | case2 rest v after hread ih =>
    rw [paramsAt]
    split
    · next hslice => rw [slice?_append_end] at hslice; cases hslice
    · next rest' hslice =>
      rw [slice?_append_end] at hslice
      cases hslice
      split
      · next hsegment => rw [segmentFrom_eq, hread] at hsegment; cases hsegment
      · next v' next hsegment =>
        rw [segmentFrom_eq, hread] at hsegment
        cases hsegment
        have hbehind := ih (pre ++ Token.segment v)
        rw [List.append_assoc, ← readSegment_eq hread, Text.byteSize_append] at hbehind
        rw [hbehind]
        rfl

theorem utf8Size_of_isMarker (hm : isMarker m = true) : m.utf8Size = 1 := by
  simp only [isMarker, Bool.or_eq_true, beq_iff_eq] at hm
  rcases hm with rfl | rfl <;> rfl

theorem utf8Size_of_isDirectiveName {d : Char} (hd : isDirectiveName d = true) :
    d.utf8Size = 1 := by
  simp only [isDirectiveName, Bool.or_eq_true, beq_iff_eq] at hd
  rcases hd with rfl | rfl <;> rfl

theorem utf8Size_separator : '|'.utf8Size = 1 := rfl

theorem utf8Size_open : '('.utf8Size = 1 := rfl

theorem utf8Size_close : ')'.utf8Size = 1 := rfl

theorem spanned_directive (hm : isMarker m = true) {d : Char} (hd : isDirectiveName d = true)
    (guard payload : List Char) (start : Nat) :
    (⟨m, [d], .directive guard payload⟩ : Token).spanned start = {
      form := .directive
      name := String.ofList [d]
      params := [String.ofList guard, String.ofList payload]
      head := ⟨start, start + 3 + byteSize (Token.segment guard)⟩
      ends := [start + 3 + byteSize (Token.segment guard),
        start + 3 + byteSize (Token.segment guard) + byteSize payload] } := by
  have hname : (⟨m, [d], .directive guard payload⟩ : Token).name = String.ofList [d] :=
    upper_directiveName (by simpa [isDirectiveName] using hd)
  have hhead : byteSize (⟨m, [d], .directive guard payload⟩ : Token).head =
      3 + byteSize (Token.segment guard) := by
    simp [Token.head, utf8Size_of_isMarker hm, utf8Size_of_isDirectiveName hd, utf8Size_separator]
    omega
  rw [Token.spanned, hname, hhead, ← Nat.add_assoc]
  rfl

theorem spanned_paren (hm : isMarker m = true) (n inner : List Char) (closed : Bool)
    (start : Nat) : (⟨m, n, .paren inner closed⟩ : Token).spanned start = {
      form := .paren
      name := Text.upper (String.ofList n)
      params := (Token.parenParams inner).map String.ofList
      head := ⟨start, start + 1 + byteSize n + byteSize ('(' :: inner) + if closed then 2 else 1⟩
      ends := [] } := by
  have hhead : byteSize (⟨m, n, .paren inner closed⟩ : Token).head =
      1 + byteSize n + byteSize ('(' :: inner) + if closed then 2 else 1 := by
    cases closed <;>
      simp [Token.head, utf8Size_of_isMarker hm, utf8Size_close, utf8Size_separator] <;> omega
  rw [Token.spanned, hhead]
  simp only [Nat.add_assoc]
  rfl

theorem spanned_pipe (hm : isMarker m = true) (n : List Char) (ps : List (List Char))
    (start : Nat) : (⟨m, n, .pipe ps⟩ : Token).spanned start = {
      form := .pipe
      name := Text.upper (String.ofList n)
      params := ps.map String.ofList
      head := ⟨start, start + 1 + byteSize n + 1⟩
      ends := endsFrom (start + 1 + byteSize n + 1) (ps.map Token.segment) } := by
  have hhead : byteSize (⟨m, n, .pipe ps⟩ : Token).head = 1 + byteSize n + 1 := by
    simp [Token.head, utf8Size_of_isMarker hm, utf8Size_separator]
    omega
  rw [Token.spanned, hhead]
  simp only [Nat.add_assoc]
  rfl

/-- A directive is found where it is read. -/
theorem directiveAt_eq (hm : isMarker m = true) (hrest : beginsDirective rest = true) :
    directiveAt (pre ++ m :: rest) (byteSize pre) =
      some ((readDirective m rest).map fun r => r.1.spanned (byteSize pre)) := by
  have hsize := utf8Size_of_isMarker hm
  unfold beginsDirective at hrest
  split at hrest
  · next d cs =>
    have hd := utf8Size_of_isDirectiveName hrest
    have hname : slice? (pre ++ m :: d :: '|' :: cs) ⟨byteSize pre + 1, byteSize pre + 2⟩ =
        some [d] := by
      refine slice?_eq_some_iff.2 ⟨pre ++ [m], '|' :: cs, by simp, ?_, ?_⟩ <;> simp [hsize, hd]
    have hbehind : slice? (pre ++ m :: d :: '|' :: cs)
        ⟨byteSize pre + 3, byteSize (pre ++ m :: d :: '|' :: cs)⟩ = some cs := by
      refine slice?_end_eq_some_iff.2 ⟨pre ++ [m, d, '|'], by simp, ?_⟩
      simp [hsize, hd, utf8Size_separator]
    rw [directiveAt, hname, Option.bind_eq_bind, Option.bind_some, hbehind, Option.bind_some,
      segmentFrom_eq, readDirective, if_pos hrest]
    cases hread : readSegment false cs with
    | none => rfl
    | some r =>
      obtain ⟨guard, payload⟩ := r
      obtain rfl := readSegment_eq hread
      have hpayload : slice? (pre ++ m :: d :: '|' :: (Token.segment guard ++ payload))
          ⟨byteSize pre + 3 + byteSize (Token.segment guard),
            byteSize (pre ++ m :: d :: '|' :: (Token.segment guard ++ payload))⟩ =
          some payload := by
        refine slice?_end_eq_some_iff.2
          ⟨pre ++ m :: d :: '|' :: Token.segment guard, by simp, ?_⟩
        simp [hsize, hd, utf8Size_separator]
        omega
      have hend : byteSize (pre ++ m :: d :: '|' :: (Token.segment guard ++ payload)) =
          byteSize pre + 3 + byteSize (Token.segment guard) + byteSize payload := by
        simp [hsize, hd, utf8Size_separator]
        omega
      simp only [Option.map_some, hpayload, Option.bind_some]
      rw [spanned_directive hm hrest, hend]
  · cases hrest

/-- A parenthesised call is found where it is read. -/
theorem parenAt_eq (hm : isMarker m = true) (n after : List Char) :
    parenAt (pre ++ m :: (n ++ '(' :: after)) (byteSize pre) n (byteSize pre + 1 + byteSize n) =
      some (match after.dropWhile (· != ')') with
        | [] => none
        | _ :: rest => some ((⟨m, n, .paren (after.takeWhile (· != ')')) (rest.head? = some '|')⟩ :
            Token).spanned (byteSize pre))) := by
  have hsize := utf8Size_of_isMarker hm
  have hbehind : slice? (pre ++ m :: (n ++ '(' :: after))
      ⟨byteSize pre + 1 + byteSize n, byteSize (pre ++ m :: (n ++ '(' :: after))⟩ =
      some ('(' :: after) := by
    refine slice?_end_eq_some_iff.2 ⟨pre ++ m :: n, by simp, ?_⟩
    simp [hsize]
    omega
  have hdrop : ('(' :: after).dropWhile (· != ')') = after.dropWhile (· != ')') := rfl
  have htake : ('(' :: after).takeWhile (· != ')') = '(' :: after.takeWhile (· != ')') := rfl
  rw [parenAt, hbehind, Option.bind_eq_bind, Option.bind_some]
  simp only [hdrop, htake]
  cases hclose : after.dropWhile (· != ')') with
  | nil => rfl
  | cons c rest =>
    obtain ⟨hafter, -, hc⟩ := dropWhile_eq_cons_iff.1 hclose
    obtain rfl : c = ')' := by simpa using hc
    generalize after.takeWhile (· != ')') = inner at hafter
    subst hafter
    have hinner : slice? (pre ++ m :: (n ++ '(' :: (inner ++ ')' :: rest)))
        ⟨byteSize pre + 1 + byteSize n + 1,
          byteSize pre + 1 + byteSize n + byteSize ('(' :: inner)⟩ = some inner := by
      refine slice?_eq_some_iff.2 ⟨pre ++ m :: (n ++ ['(']), ')' :: rest, by simp, ?_, ?_⟩ <;>
        simp [hsize, utf8Size_open] <;> omega
    have hrest : slice? (pre ++ m :: (n ++ '(' :: (inner ++ ')' :: rest)))
        ⟨byteSize pre + 1 + byteSize n + byteSize ('(' :: inner) + 1,
          byteSize (pre ++ m :: (n ++ '(' :: (inner ++ ')' :: rest)))⟩ = some rest := by
      refine slice?_end_eq_some_iff.2 ⟨pre ++ m :: (n ++ '(' :: (inner ++ [')'])), by simp, ?_⟩
      simp [hsize, utf8Size_close]
      omega
    simp only [hinner, hrest, Option.bind_some, spanned_paren hm, decide_eq_true_eq]

/-- A named call is found where it is read. -/
theorem namedAt_eq (hm : isMarker m = true) :
    namedAt (pre ++ m :: rest) (byteSize pre) =
      some ((readNamed m rest).map fun r => r.1.spanned (byteSize pre)) := by
  have hsize := utf8Size_of_isMarker hm
  have hrest : slice? (pre ++ m :: rest) ⟨byteSize pre + 1, byteSize (pre ++ m :: rest)⟩ =
      some rest :=
    slice?_end_eq_some_iff.2 ⟨pre ++ [m], by simp, by simp [hsize]⟩
  have hcut := List.takeWhile_append_dropWhile (p := isNameChar) (l := rest)
  rw [namedAt, hrest, Option.bind_eq_bind, Option.bind_some, readNamed]
  split
  · rfl
  · generalize rest.takeWhile isNameChar = n at hcut ⊢
    generalize rest.dropWhile isNameChar = after at hcut ⊢
    subst hcut
    have hname : slice? (pre ++ m :: (n ++ after))
        ⟨byteSize pre + 1, byteSize pre + 1 + byteSize n⟩ = some n := by
      refine slice?_eq_some_iff.2 ⟨pre ++ [m], after, by simp, ?_, ?_⟩ <;> simp [hsize]
    have hafter : slice? (pre ++ m :: (n ++ after))
        ⟨byteSize pre + 1 + byteSize n, byteSize (pre ++ m :: (n ++ after))⟩ = some after := by
      refine slice?_end_eq_some_iff.2 ⟨pre ++ m :: n, by simp, ?_⟩
      simp [hsize]
      omega
    simp only [hname, hafter, Option.bind_some]
    cases after with
    | nil => rfl
    | cons c cs =>
      by_cases hbar : c = '|'
      · subst hbar
        have hparams := paramsAt_eq (pre ++ m :: (n ++ ['|'])) cs
        have hstart : byteSize (pre ++ m :: (n ++ ['|'])) = byteSize pre + 1 + byteSize n + 1 := by
          simp [hsize, utf8Size_separator]
          omega
        rw [hstart, List.append_assoc, List.cons_append, List.append_assoc, List.singleton_append]
          at hparams
        simp only [hparams, Option.map_some, spanned_pipe hm]
        rfl
      · by_cases hopen : c = '('
        · subst hopen
          simp only [parenAt_eq hm]
          cases cs.dropWhile (· != ')') with
          | nil => rfl
          | cons _ rest =>
            cases rest with
            | nil => rfl
            | cons d rest =>
              by_cases hd : d = '|'
              · subst hd
                rfl
              · simp [hd]
        · simp [hbar, hopen]

/-- A token is found where it is read. -/
theorem callAt_eq (hm : isMarker m = true) :
    callAt (pre ++ m :: rest) (byteSize pre) =
      some ((readToken m rest).map fun r => r.1.spanned (byteSize pre)) := by
  have hrest : slice? (pre ++ m :: rest) ⟨byteSize pre + 1, byteSize (pre ++ m :: rest)⟩ =
      some rest :=
    slice?_end_eq_some_iff.2 ⟨pre ++ [m], by simp, by simp [utf8Size_of_isMarker hm]⟩
  have hnone (h : beginsDirective rest ≠ true) : readDirective m rest = none := by
    unfold readDirective
    split
    · exact if_neg h
    · rfl
  rw [callAt, hrest, Option.bind_eq_bind, Option.bind_some, readToken]
  split
  · next hbegins =>
    rw [directiveAt_eq hm hbegins, Option.bind_eq_bind, Option.bind_some]
    cases readDirective m rest with
    | none => simp [namedAt_eq hm]
    | some r => rfl
  · next hbegins =>
    rw [hnone hbegins, Option.bind_eq_bind, Option.bind_some, Option.none_or]
    exact namedAt_eq hm

theorem getLast?_endsFrom (start : Nat) (parts : List (List Char)) :
    (endsFrom start parts).getLast?.getD start = start + byteSize parts.flatten := by
  induction parts generalizing start with
  | nil => rfl
  | cons part parts ih =>
    rw [endsFrom, List.getLast?_cons, Option.getD_some, ih, List.flatten_cons,
      Text.byteSize_append, Nat.add_assoc]

/-- A token ends where its source does. -/
theorem full_spanned (t : Token) (start : Nat) :
    (t.spanned start).full = ⟨start, start + byteSize t.source⟩ := by
  obtain ⟨m, n, call⟩ := t
  rw [Token.source, Text.byteSize_append, ← Nat.add_assoc]
  cases call with
  | pipe ps => exact congrArg (Span.mk start) (getLast?_endsFrom _ _)
  | paren inner closed => rfl
  | directive guard payload =>
    rw [Token.tail, List.flatten_singleton]
    rfl

/-! ## Texts -/

/-- A text cut in front of its first marker. -/
theorem exists_marker {cs after : List Char} (h : cs.dropWhile (!isMarker ·) = m :: after) :
    cs = cs.takeWhile (!isMarker ·) ++ m :: after ∧ MarkerFree (cs.takeWhile (!isMarker ·)) ∧
      isMarker m = true := by
  obtain ⟨hcs, hfree, hm⟩ := dropWhile_eq_cons_iff.1 h
  exact ⟨hcs, fun c hc => by simpa using hfree c hc, by simpa using hm⟩

theorem markerFree_of_dropWhile {cs : List Char} (h : cs.dropWhile (!isMarker ·) = []) :
    MarkerFree cs := by
  have hcs := List.takeWhile_append_dropWhile (p := (!isMarker ·)) (l := cs)
  rw [h, List.append_nil] at hcs
  rw [← hcs]
  exact fun c hc => by simpa using List.all_eq_true.1 List.all_takeWhile c hc

/-- An offset with a marker behind it is not the end of the text. -/
theorem start_lt_of_marker {cs rest after : List Char} {start : Nat}
    (hrest : slice? cs ⟨start, byteSize cs⟩ = some rest)
    (hmarker : rest.dropWhile (!isMarker ·) = m :: after) : start < byteSize cs := by
  obtain ⟨pre, rfl, rfl⟩ := slice?_end_eq_some_iff.1 hrest
  have hne : rest ≠ [] := by
    rintro rfl
    cases hmarker
  have := byteSize_pos hne
  rw [Text.byteSize_append]
  omega

/-- A token that is found stops further on in the text. -/
theorem callAt_progress {cs rest after : List Char} {start : Nat} {t : Spanned}
    (hrest : slice? cs ⟨start, byteSize cs⟩ = some rest)
    (hmarker : rest.dropWhile (!isMarker ·) = m :: after)
    (hcall : callAt cs (start + byteSize (rest.takeWhile (!isMarker ·))) = some (some t)) :
    start < t.full.stop := by
  obtain ⟨pre, rfl, rfl⟩ := slice?_end_eq_some_iff.1 hrest
  obtain ⟨hcut, -, hm⟩ := exists_marker hmarker
  generalize rest.takeWhile (!isMarker ·) = gap at hcut hcall
  subst hcut
  rw [← List.append_assoc, ← Text.byteSize_append, callAt_eq hm] at hcall
  obtain ⟨⟨u, behind⟩, -, rfl⟩ := Option.map_eq_some_iff.1 (Option.some.inj hcall)
  have := byteSize_pos u.source_ne_nil
  rw [full_spanned]
  simp only [Text.byteSize_append]
  omega

/-- The tokens from an offset on. -/
def tokensFrom (cs : List Char) (start : Nat) : Option (List Spanned) :=
  match _hrest : slice? cs ⟨start, byteSize cs⟩ with
  | none => none
  | some rest =>
    match _hmarker : rest.dropWhile (!isMarker ·) with
    | [] => some []
    | _ :: _ =>
      match _hcall : callAt cs (start + byteSize (rest.takeWhile (!isMarker ·))) with
      | none => none
      | some (some t) => (tokensFrom cs t.full.stop).map (t :: ·)
      | some none => tokensFrom cs (start + byteSize (rest.takeWhile (!isMarker ·)) + 1)
termination_by byteSize cs - start
decreasing_by
  all_goals have := start_lt_of_marker _hrest _hmarker
  · have := callAt_progress _hrest _hmarker _hcall
    omega
  · omega

/-- The tokens of a text, found by offsets. -/
def spannedTokens (cs : List Char) : Option (List Spanned) :=
  match cs.dropWhile (!isMarker ·) with
  | [] => some []
  | _ :: _ =>
    (slice? cs ⟨byteSize (cs.takeWhile (!isMarker ·)) + 1, byteSize cs⟩).bind fun rest =>
      if rest.contains '|' then tokensFrom cs 0 else some []

/-- The tokens of pieces that stand at an offset, with their spans. -/
def spannedPieces (start : Nat) (ps : List Piece) : List Spanned :=
  (locate byteSize start ps).map fun x => x.2.spanned x.1

theorem spannedPieces_token (start : Nat) (t : Token) (ps : List Piece) :
    spannedPieces start (.token t :: ps) =
      t.spanned start :: spannedPieces (start + byteSize t.source) ps := rfl

/-- Plain characters put off what follows. -/
theorem spannedPieces_plain (start : Nat) (gap : List Char) (ps : List Piece) :
    spannedPieces start (gap.map .plain ++ ps) = spannedPieces (start + byteSize gap) ps := by
  induction gap generalizing start with
  | nil => rfl
  | cons c gap ih =>
    rw [Text.byteSize_cons, ← Nat.add_assoc, ← ih]
    rfl

/-- A marker that opens a token. -/
theorem scan_of_readToken {cs : List Char} {t : Token} (hm : isMarker m = true)
    (hread : readToken m cs = some (t, rest)) : scan (m :: cs) = .token t :: scan rest := by
  rw [scan, if_pos hm]
  split
  · next h =>
    rw [hread] at h
    cases h
    rfl
  · next h => rw [hread] at h; cases h

/-- A marker that opens none. -/
theorem scan_of_readToken_none {cs : List Char} (hread : readToken m cs = none) :
    scan (m :: cs) = .plain m :: scan cs := by
  rw [scan]
  split
  · split
    · next h => rw [hread] at h; cases h
    · rfl
  · rfl

/-- From any place on, the reader finds what a scan finds. -/
theorem tokensFrom_eq (pre rest : List Char) : tokensFrom (pre ++ rest) (byteSize pre) =
    some (spannedPieces (byteSize pre) (scan rest)) := by
  induction hlength : rest.length using Nat.strongRecOn generalizing pre rest with
  | ind n ih =>
    subst hlength
    rw [tokensFrom]
    split
    · next hslice => rw [slice?_append_end] at hslice; cases hslice
    · next rest' hslice =>
      rw [slice?_append_end] at hslice
      cases hslice
      split
      · next hmarker =>
        -- no marker, no token
        have hplain := spannedPieces_plain (byteSize pre) rest []
        rw [scan_markerFree (markerFree_of_dropWhile hmarker), ← List.append_nil (rest.map _),
          hplain]
        rfl
      · next m after hmarker =>
        obtain ⟨hcut, hfree, hm⟩ := exists_marker hmarker
        generalize rest.takeWhile (!isMarker ·) = gap at hcut hfree
        subst hcut
        have hcall : callAt (pre ++ gap ++ m :: after) (byteSize (pre ++ gap)) = _ := callAt_eq hm
        rw [List.append_assoc, Text.byteSize_append] at hcall
        rw [scan_append hfree, spannedPieces_plain]
        split
        · next h => rw [hcall] at h; cases h
        · next t h =>
          rw [hcall] at h
          obtain ⟨⟨u, behind⟩, hread, rfl⟩ := Option.map_eq_some_iff.1 (Option.some.inj h)
          have hsource := readToken_eq hread
          have hlater := ih behind.length (by have := readToken_length_le hread; simp; omega)
            (pre ++ gap ++ u.source) behind rfl
          rw [List.append_assoc, ← hsource, List.append_assoc] at hlater
          rw [scan_of_readToken hm hread, full_spanned, spannedPieces_token]
          simp only [Text.byteSize_append] at hlater
          rw [hlater]
          rfl
        · next h =>
          rw [hcall] at h
          have hread : readToken m after = none :=
            Option.map_eq_none_iff.1 (Option.some.inj h)
          have hlater := ih after.length (by simp; omega) (pre ++ gap ++ [m]) after rfl
          have hbehind : byteSize (pre ++ gap ++ [m]) = byteSize pre + byteSize gap + 1 := by
            simp [utf8Size_of_isMarker hm, Nat.add_assoc]
          have hplain := spannedPieces_plain (byteSize pre + byteSize gap) [m] (scan after)
          rw [hbehind, List.append_assoc, List.append_assoc, List.singleton_append] at hlater
          rw [hlater, scan_of_readToken_none hread]
          rw [Text.byteSize_cons, utf8Size_of_isMarker hm] at hplain
          exact congrArg some hplain.symm

/-- **The reader by offsets never fails**, and finds the tokens of the text. -/
theorem spannedTokens_eq (cs : List Char) : spannedTokens cs = some (spannedPieces 0 (pieces cs)) := by
  have hnone : spannedPieces 0 (cs.map .plain) = [] := by
    have hplain := spannedPieces_plain 0 cs []
    rwa [List.append_nil] at hplain
  cases hmarker : cs.dropWhile (!isMarker ·) with
  | nil =>
    have hplain : carriesMacros cs = false := by rw [carriesMacros, hmarker]
    rw [spannedTokens, hmarker, pieces, hplain]
    exact congrArg some hnone.symm
  | cons m after =>
    obtain ⟨hcut, hfree, hm⟩ := exists_marker hmarker
    have hcarries : carriesMacros cs = after.contains '|' := by rw [carriesMacros, hmarker]
    have hafter : slice? cs ⟨byteSize (cs.takeWhile (!isMarker ·)) + 1, byteSize cs⟩ =
        some after := by
      refine slice?_end_eq_some_iff.2 ⟨cs.takeWhile (!isMarker ·) ++ [m], ?_, ?_⟩
      · rw [List.append_assoc, List.singleton_append, ← hcut]
      · simp [utf8Size_of_isMarker hm]
    rw [spannedTokens, hmarker, pieces, hcarries]
    simp only [hafter, Option.bind_some]
    split
    · exact tokensFrom_eq [] cs
    · rw [hnone]

end Stencil
