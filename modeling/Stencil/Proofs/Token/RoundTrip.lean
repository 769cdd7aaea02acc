import Stencil.Proofs.Lines
import Stencil.Proofs.Token.Grammar

/-!
# Writing calls and reading them back

`pipeText`, `parenText` and `directiveText` write a call with given parameters. A call that stands
alone between texts without a marker is read back with the same name and parameters, as long as
each parameter can be written at all: only `|` has an escape, so a pipe parameter must hold no
marker, neither it nor a guard may end in a `\`, and a parenthesised parameter must be trimmed and
hold no `,` or `)`. The other way round every parameter that was read can be written: the source of
a pipe call or a directive is what `pipeText` or `directiveText` makes of its parts.

`calls_roundtrip` states both directions.
-/

namespace Stencil

/-! ## Escaping -/

theorem escape_cons (c : Char) (p : List Char) :
    escape (c :: p) = (if c = '|' then ['\\', '|'] else [c]) ++ escape p := rfl

/-- No `|` comes first in an escaped text. -/
theorem escape_ne_separator_cons (p v : List Char) : escape p ≠ '|' :: v := by
  cases p with
  | nil => simp [escape]
  | cons c p =>
    rw [escape_cons]
    split
    · simp
    · next hc => simp [hc]

/-- Escaping loses nothing, whatever the text. -/
theorem unescape_escape (p : List Char) : unescape (escape p) = p := by
  induction p with
  | nil => rfl
  | cons c p ih =>
    rw [escape_cons]
    split
    · next hc => simp [unescape, ih, hc]
    · rw [List.singleton_append, unescape_cons fun _ => escape_ne_separator_cons p, ih]

theorem markerFree_escape {p : List Char} (hp : MarkerFree p) : MarkerFree (escape p) := by
  intro c hc
  obtain ⟨d, hd, hcd⟩ := List.mem_flatMap.1 hc
  split at hcd
  · rcases List.mem_cons.1 hcd with rfl | hcd
    · rfl
    · rw [List.mem_singleton.1 hcd]
      rfl
  · rw [List.mem_singleton.1 hcd]
    exact hp d hd

/-- An escaped text ends in a `\` only where the text does, and every `|` in it has one in
front. -/
theorem isBody_escape {p : List Char} (hp : p.getLast? ≠ some '\\') : IsBody (escape p) := by
  induction p with
  | nil => exact isBody_nil
  | cons c p ih =>
    have hrest : IsBody (escape p) := by
      cases p with
      | nil => exact isBody_nil
      | cons d p => exact ih (by simpa using hp)
    rw [escape_cons]
    split
    · exact isBody_escaped.2 hrest
    · next hc =>
      refine (isBody_cons hc ?_).2 hrest
      rintro rfl
      cases he : escape p with
      | nil =>
        -- nothing behind the `\`: it would end the text
        obtain rfl : p = [] := by rw [← unescape_escape p, he]; rfl
        exact absurd rfl hp
      | cons d v =>
        exact ⟨d, v, rfl, fun hd => escape_ne_separator_cons p v (by rw [he, hd])⟩

-- over the characters of the text, not over all that there are
instance (u : List Char) : Decidable (MarkerFree u) :=
  decidable_of_iff (u.all (!isMarker ·) = true) (by simp [MarkerFree])

instance (n : List Char) : Decidable (IsName n) :=
  decidable_of_iff ((!n.isEmpty && n.all isNameChar) = true) (by simp [IsName])

/-- A text that can stand as a parameter of a pipe call. -/
def Expressible (p : List Char) : Prop := MarkerFree p ∧ p.getLast? ≠ some '\\'

instance (p : List Char) : Decidable (Expressible p) :=
  inferInstanceAs (Decidable (MarkerFree p ∧ p.getLast? ≠ some '\\'))

theorem Expressible.isParam {p : List Char} (hp : Expressible p) : IsParam (escape p) :=
  ⟨isBody_escape hp.2, markerFree_escape hp.1⟩

/-! ## Calls as they are written -/

/-- A pipe call with the name `n` and the parameters `ps`. -/
def pipeText (m : Char) (n : List Char) (ps : List (List Char)) : List Char :=
  m :: n ++ '|' :: ps.flatMap fun p => escape p ++ ['|']

/-- A parenthesised call with the name `n` and the parameters `ps`, a `|` behind it. -/
def parenText (m : Char) (n : List Char) (ps : List (List Char)) : List Char :=
  m :: n ++ '(' :: ([','].intercalate ps ++ [')', '|'])

/-- A directive with the name `d`. -/
def directiveText (m d : Char) (guard payload : List Char) : List Char :=
  m :: d :: '|' :: (escape guard ++ '|' :: payload)

/-! ## A call by itself -/

/-- A text without a marker in front of another stays plain. -/
theorem scan_append {pre : List Char} (hpre : MarkerFree pre) (cs : List Char) :
    scan (pre ++ cs) = pre.map .plain ++ scan cs := by
  induction pre with
  | nil => rfl
  | cons c pre ih =>
    have hc : isMarker c = false := hpre c (by simp)
    rw [List.cons_append, scan, hc, ih fun d hd => hpre d (by simp [hd])]
    rfl

theorem scan_markerFree {cs : List Char} (hcs : MarkerFree cs) : scan cs = cs.map .plain := by
  have h := scan_append hcs []
  rw [List.append_nil] at h
  rw [h, scan, List.append_nil]

/-- The only call of a text is its only token. -/
theorem tokenize_single {m : Char} {pre cs suf : List Char} {t : Token} (hm : isMarker m = true)
    (hpre : MarkerFree pre) (hsuf : MarkerFree suf) (hcall : IsCallAt m cs t)
    (hsource : m :: cs = t.source ++ suf) (hbar : '|' ∈ cs) :
    tokenize (String.ofList (pre ++ m :: cs)) = [t] := by
  have hmacro : HasMacro (pre ++ m :: cs) := ⟨pre, m, cs, rfl, hm, hbar⟩
  have hread : readToken m cs = some (t, suf) := readToken_eq_some_iff.2 ⟨hsource, hcall⟩
  have hscan : scan (m :: cs) = .token t :: scan suf := by
    rw [scan, if_pos hm]
    split
    · next h =>
      rw [hread] at h
      cases h
      rfl
    · next h => simp [hread] at h
  rw [tokenize, String.toList_ofList, pieces, if_pos (carriesMacros_iff.2 hmacro),
    scan_append hpre, hscan, scan_markerFree hsuf, List.filterMap_append, filterMap_plain,
    List.nil_append, List.filterMap_cons]
  simp only [Piece.token?, filterMap_plain]

/-! ## Reading what was written -/

/-- `cs` holds one token, which calls the trigger `name` in the form `form` with `params`. -/
def ReadsAs (cs : List Char) (form : Form) (name : String) (params : List String) : Prop :=
  ∃ t, tokenize (String.ofList cs) = [t] ∧ t.form = form ∧ t.name = name ∧ t.params = params

section

variable {m : Char} {n pre suf : List Char} {ps : List (List Char)}

theorem readsAs_pipeText (hm : isMarker m = true) (hn : IsName n)
    (hps : ∀ p ∈ ps, Expressible p) (hpre : MarkerFree pre) (hsuf : MarkerFree suf)
    (hbar : '|' ∉ suf) :
    ReadsAs (pre ++ pipeText m n ps ++ suf) .pipe (Text.upper (String.ofList n))
      (ps.map String.ofList) := by
  have hparams : ∀ u ∈ ps.map escape, IsParam u := by
    intro u hu
    obtain ⟨p, hp, rfl⟩ := List.mem_map.1 hu
    exact (hps p hp).isParam
  have hmax : ¬ BeginsParam suf := by
    rintro ⟨u, rest, rfl, -⟩
    exact hbar (by simp)
  have hcall := isPipeAt_mk (m := m) hn hparams hmax
  have hback : (ps.map escape).map unescape = ps := by
    simp [Function.comp_def, unescape_escape]
  rw [hback, List.flatMap_map] at hcall
  refine ⟨⟨m, n, .pipe ps⟩, ?_, rfl, rfl, rfl⟩
  have htext : pre ++ pipeText m n ps ++ suf =
      pre ++ m :: (n ++ '|' :: (ps.flatMap (fun p => escape p ++ ['|']) ++ suf)) := by
    simp [pipeText]
  rw [htext]
  refine tokenize_single hm hpre hsuf (.inr (.inl hcall)) ?_ (by simp)
  simp [Token.source, Token.head, Token.tail, List.flatMap_def]
  rfl

/-- The parameters of a parenthesised call are what its commas separate. -/
theorem parenParams_intercalate (hps : ∀ p ∈ ps, Text.dropBlanks p = p ∧ ',' ∉ p)
    (hne : ps ≠ [[]]) : Token.parenParams ([','].intercalate ps) = ps := by
  have hblank : ([','].intercalate ps).all Text.isBlank = true → ps = [] := by
    intro hall
    match ps, hps, hne with
    | [], _, _ => rfl
    | [p], hps, hne =>
      -- a blank text that is trimmed is empty
      have hp : p.dropWhile Text.isBlank = [] := by
        have hall : ∀ c ∈ p, Text.isBlank c = true := by simpa [List.intercalate] using hall
        have hdrop : (p ++ []).dropWhile Text.isBlank = [] := List.dropWhile_append_of_pos hall
        rwa [List.append_nil] at hdrop
      have := (hps p (by simp)).1
      simp only [Text.dropBlanks, hp, Text.dropEndBlanks_nil] at this
      exact absurd (by rw [← this]) hne
    | p :: q :: qs, _, _ =>
      have hcomma : ',' ∈ [','].intercalate (p :: q :: qs) := by
        simp [List.intercalate_cons_cons]
      exact absurd (List.all_eq_true.1 hall _ hcomma) (by decide)
  unfold Token.parenParams
  split
  · next hall => exact (hblank hall).symm
  · next hall =>
    have hnil : ps ≠ [] := by
      rintro rfl
      exact hall rfl
    rw [List.splitOn_intercalate ',' (fun p hp => (hps p hp).2) hnil]
    exact (List.map_congr_left fun p hp => (hps p hp).1).trans (List.map_id ps)

theorem not_mem_intercalate {c d : Char} (hcd : c ≠ d) (hps : ∀ p ∈ ps, c ∉ p) :
    c ∉ [d].intercalate ps := by
  intro h
  rcases mem_of_mem_intercalate h with h | ⟨p, hp, h⟩
  · exact hcd (List.mem_singleton.1 h)
  · exact hps p hp h

theorem readsAs_parenText (hm : isMarker m = true) (hn : IsName n)
    (hps : ∀ p ∈ ps, Text.dropBlanks p = p ∧ ',' ∉ p ∧ ')' ∉ p) (hne : ps ≠ [[]])
    (hpre : MarkerFree pre) (hsuf : MarkerFree suf) :
    ReadsAs (pre ++ parenText m n ps ++ suf) .paren (Text.upper (String.ofList n))
      (ps.map String.ofList) := by
  have hinner : ')' ∉ [','].intercalate ps :=
    not_mem_intercalate (by decide) fun p hp => (hps p hp).2.2
  have hcall : IsParenAt m (n ++ '(' :: ([','].intercalate ps ++ ')' :: '|' :: suf))
      ⟨m, n, .paren ([','].intercalate ps) true⟩ := isParenAt_mk hn hinner
  have hparams : Token.parenParams ([','].intercalate ps) = ps :=
    parenParams_intercalate (fun p hp => ⟨(hps p hp).1, (hps p hp).2.1⟩) hne
  refine ⟨⟨m, n, .paren ([','].intercalate ps) true⟩, ?_, rfl, rfl,
    congrArg (List.map String.ofList) hparams⟩
  have htext : pre ++ parenText m n ps ++ suf =
      pre ++ m :: (n ++ '(' :: ([','].intercalate ps ++ ')' :: '|' :: suf)) := by
    simp [parenText]
  rw [htext]
  refine tokenize_single hm hpre hsuf (.inr (.inr hcall)) ?_ (by simp)
  simp [Token.source, Token.head, Token.tail]

end

theorem readsAs_directiveText {m d : Char} {pre guard payload : List Char}
    (hm : isMarker m = true) (hd : d = '<' ∨ d = '!') (hguard : guard.getLast? ≠ some '\\')
    (hpre : MarkerFree pre) :
    ReadsAs (pre ++ directiveText m d guard payload) .directive (String.ofList [d])
      [String.ofList guard, String.ofList payload] := by
  have hcall : IsDirectiveAt m (d :: '|' :: (escape guard ++ '|' :: payload))
      ⟨m, [d], .directive (unescape (escape guard)) payload⟩ :=
    isDirectiveAt_mk hd (isBody_escape hguard)
  rw [unescape_escape] at hcall
  refine ⟨⟨m, [d], .directive guard payload⟩, ?_, rfl, upper_directiveName hd, rfl⟩
  refine tokenize_single hm hpre (fun c hc => absurd hc List.not_mem_nil) (.inl hcall) ?_ (by simp)
  simp [Token.source, Token.head, Token.tail, Token.segment]

/-! ## Writing what was read -/

/-- A located token is a call that begins where it is located. -/
theorem beginsAt_of_mem_located {s : String} {p : Nat} {t : Token} (h : (p, t) ∈ located s) :
    BeginsAt s.toList p t := by
  unfold located pieces at h
  split at h
  · obtain ⟨o, rfl, hbegins, -⟩ := mem_locate_scan.1 h
    rwa [Nat.zero_add]
  · have hnone : (locate Text.byteSize 0 (s.toList.map .plain)).map (·.2) = [] := by
      rw [map_locate, filterMap_plain]
    simp [List.map_eq_nil_iff.1 hnone] at h

/-- The source of a pipe call is its parameters written as a pipe call. -/
theorem IsCallAt.source_eq_pipeText {m : Char} {cs : List Char} {t : Token} (h : IsCallAt m cs t)
    (hform : t.form = .pipe) : ∃ n, IsName n ∧ t.name = Text.upper (String.ofList n) ∧
      t.source = pipeText m n (t.params.map String.toList) := by
  rcases h with ⟨-, -, -, -, -, -, hform', -⟩ | ⟨n, us, rest, hn, -, -, -, -, hname, hparams,
    hhead, -⟩ | ⟨-, -, -, -, -, -, hform', -⟩
  · simp [hform] at hform'
  · refine ⟨n, hn, hname, ?_⟩
    obtain rfl := IsPipeAt.eq hform hparams hhead
    simp [Token.source, Token.head, Token.tail, Token.params, pipeText, Token.segment,
      List.flatMap_def, Function.comp_def]
  · simp [hform] at hform'

/-- The source of a directive is its guard and its payload written as a directive. -/
theorem IsCallAt.source_eq_directiveText {m : Char} {cs : List Char} {t : Token}
    (h : IsCallAt m cs t) (hform : t.form = .directive) : ∃ d guard payload,
      (d = '<' ∨ d = '!') ∧ t.name = String.ofList [d] ∧
      t.params = [String.ofList guard, String.ofList payload] ∧
      t.source = directiveText m d guard payload := by
  rcases h with ⟨d, u, payload, hd, hu, -, -, hname, hparams, hhead, -⟩ |
    ⟨-, -, -, -, -, -, -, hform', -⟩ | ⟨-, -, -, -, -, -, hform', -⟩
  · refine ⟨d, unescape u, payload, hd, hname, hparams, ?_⟩
    obtain rfl := IsDirectiveAt.eq hu hform hparams hhead
    simp [Token.source, Token.head, Token.tail, directiveText, Token.segment]
  · simp [hform] at hform'
  · simp [hform] at hform'

/-- **Calls round-trip in all three forms.** A call that is written between texts without a marker
is the one token there, with the name in upper case and with exactly the parameters that were
written: in a pipe call parameters without a marker that do not end in a `\`; in parentheses
trimmed ones without `,` and `)`, but not a single empty one; in a directive any guard that does
not end in a `\`, and any payload. And at each token of any text stands its source, which for a
pipe call or a directive is its marker, its name as spelled and its parameters, written again. -/
theorem calls_roundtrip :
    (∀ m n ps pre suf, isMarker m = true → IsName n →
      (∀ p ∈ ps, Expressible p) → MarkerFree pre → MarkerFree suf → '|' ∉ suf →
      ReadsAs (pre ++ pipeText m n ps ++ suf) .pipe (Text.upper (String.ofList n))
        (ps.map String.ofList)) ∧
    (∀ m n ps pre suf, isMarker m = true → IsName n →
      (∀ p ∈ ps, Text.dropBlanks p = p ∧ ',' ∉ p ∧ ')' ∉ p) → ps ≠ [[]] →
      MarkerFree pre → MarkerFree suf → '|' ∉ suf →
      ReadsAs (pre ++ parenText m n ps ++ suf) .paren (Text.upper (String.ofList n))
        (ps.map String.ofList)) ∧
    (∀ m d guard payload pre, isMarker m = true → (d = '<' ∨ d = '!') →
      guard.getLast? ≠ some '\\' → MarkerFree pre →
      ReadsAs (pre ++ directiveText m d guard payload) .directive (String.ofList [d])
        [String.ofList guard, String.ofList payload]) ∧
    (∀ s, tokenize s = (located s).map (·.2) ∧ ∀ p t, (p, t) ∈ located s →
      ∃ pre m rest, s.toList = pre ++ t.source ++ rest ∧ Text.byteSize pre = p ∧
        isMarker m = true ∧
        (t.form = .pipe → ∃ n, IsName n ∧ t.name = Text.upper (String.ofList n) ∧
          t.source = pipeText m n (t.params.map String.toList)) ∧
        (t.form = .directive → ∃ d guard payload, (d = '<' ∨ d = '!') ∧
          t.name = String.ofList [d] ∧
          t.params = [String.ofList guard, String.ofList payload] ∧
          t.source = directiveText m d guard payload)) := by
  refine ⟨fun m n ps pre suf hm hn hps => readsAs_pipeText hm hn hps,
    fun m n ps pre suf hm hn hps hne hpre hsuf _ => readsAs_parenText hm hn hps hne hpre hsuf,
    fun m d guard payload pre hm hd hguard => readsAs_directiveText hm hd hguard,
    fun s => ⟨(map_locate _ _ _).symm, fun p t hmem => ?_⟩⟩
  obtain ⟨pre, m, cs, hcs, hsize, hm, hcall⟩ := beginsAt_of_mem_located hmem
  obtain ⟨rest, hsource⟩ := hcall.source_append
  refine ⟨pre, m, rest, ?_, hsize, hm, hcall.source_eq_pipeText, hcall.source_eq_directiveText⟩
  rw [hcs, hsource, List.append_assoc]

/-- A `\` inside a parameter and in front of an escaped `|`, an empty parameter, markers where the
form allows them, and a token behind a character of two bytes. -/
theorem calls_roundtrip_spelled :
    ReadsAs "X &cmnt|a \\| b|\\c|| Y".toList .pipe "CMNT" ["a | b", "\\c", ""] ∧
    ReadsAs "X &moveto(WS-IN,$A|)| Y".toList .paren "MOVETO" ["WS-IN", "$A|"] ∧
    ReadsAs "X &<|A\\|$B|&PGM|".toList .directive "<" ["A|$B", "&PGM|"] ∧
    (4, ⟨'&', "Pgm".toList, .pipe ["x|".toList]⟩) ∈ located "$é|&Pgm|x\\||" ∧
    ∃ m n, (Token.mk '&' "Pgm".toList (.pipe ["x|".toList])).source =
      pipeText m n ["x|".toList] := by
  have hmem : (4, ⟨'&', "Pgm".toList, .pipe ["x|".toList]⟩) ∈ located "$é|&Pgm|x\\||" := by
    decide +kernel
  obtain ⟨hpipe, hparen, hdirective, hback⟩ := calls_roundtrip
  refine ⟨?_, ?_, ?_, hmem, ?_⟩
  · exact hpipe '&' "cmnt".toList ["a | b".toList, "\\c".toList, []] "X ".toList " Y".toList rfl
      (by decide) (by decide) (by decide) (by decide)
      (by decide)
  · exact hparen '&' "moveto".toList ["WS-IN".toList, "$A|".toList] "X ".toList " Y".toList rfl
      (by decide) (by decide) (by decide) (by decide)
      (by decide) (by decide)
  · exact hdirective '&' '<' "A|$B".toList "&PGM|".toList "X ".toList rfl (.inl rfl)
      (by decide) (by decide)
  · obtain ⟨-, m, -, -, -, -, hsource, -⟩ := (hback _).2 _ _ hmem
    obtain ⟨n, -, -, hsource⟩ := hsource rfl
    exact ⟨m, n, hsource⟩

end Stencil
