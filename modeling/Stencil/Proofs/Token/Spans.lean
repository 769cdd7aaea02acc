import Stencil.Proofs.Token.Offsets

/-!
# The spans of tokens

Every span that is computed for a token of a text can be sliced: that of the token, that of its
head, and whatever a trigger consumes of it, for any bound on the number of parameters
(`Spanned.SafeIn`). A larger bound consumes more, and without a bound all is consumed.
-/

namespace Stencil

open Text (byteSize)

/-! ## Where parameters end -/

theorem length_endsFrom (start : Nat) (parts : List (List Char)) :
    (endsFrom start parts).length = parts.length := by
  induction parts generalizing start with
  | nil => rfl
  | cons part parts ih => rw [endsFrom, List.length_cons, ih, List.length_cons]

/-- A part ends where those up to it end. -/
theorem getElem?_endsFrom {start n : Nat} {parts : List (List Char)} (hn : n < parts.length) :
    (endsFrom start parts)[n]? = some (start + byteSize (parts.take (n + 1)).flatten) := by
  induction parts generalizing start n with
  | nil => cases hn
  | cons part parts ih =>
    rw [endsFrom, List.take_succ_cons, List.flatten_cons, Text.byteSize_append, ← Nat.add_assoc]
    cases n with
    | zero => rfl
    | succ n =>
      rw [List.getElem?_cons_succ]
      exact ih (Nat.lt_of_succ_lt_succ hn)

theorem exists_of_mem_endsFrom {start p : Nat} {parts : List (List Char)}
    (hp : p ∈ endsFrom start parts) : ∃ n, p = start + byteSize (parts.take n).flatten := by
  obtain ⟨n, hn⟩ := List.mem_iff_getElem?.1 hp
  have hlt : n < parts.length := by
    rw [← length_endsFrom start]
    exact (List.getElem?_eq_some_iff.1 hn).1
  rw [getElem?_endsFrom hlt] at hn
  exact ⟨n + 1, (Option.some.inj hn).symm⟩

/-- Parts that are not empty end one behind the other. -/
theorem pairwise_endsFrom (start : Nat) {parts : List (List Char)}
    (hparts : ∀ part ∈ parts, part ≠ []) : (start :: endsFrom start parts).Pairwise (· < ·) := by
  induction parts generalizing start with
  | nil => exact List.pairwise_singleton _ _
  | cons part parts ih =>
    have hlater := ih (start + byteSize part) fun q hq => hparts q (List.mem_cons_of_mem part hq)
    have hpos := byteSize_pos (hparts part List.mem_cons_self)
    refine .cons (fun p hp => ?_) hlater
    rcases List.mem_cons.1 hp with rfl | hp
    · omega
    · have := List.rel_of_pairwise_cons hlater hp
      omega

/-! ## What is consumed -/

/-- What a trigger that takes `max` parameters at most consumes: a span, and the parameters handed to
it. There is nothing where the end of a parameter is missing. -/
def Spanned.consume? (t : Spanned) (max : Option Nat) : Option (Span × List String) :=
  match t.form with
  | .pipe =>
    match Token.takes max t.params.length with
    | 0 => some (t.head, [])
    | n + 1 => t.ends[n]?.map fun stop => (⟨t.head.start, stop⟩, t.params.take (n + 1))
  | _ => some (t.full, t.params)

theorem takes_le (max : Option Nat) (count : Nat) : Token.takes max count ≤ count := by
  cases max with
  | none => exact Nat.le_refl _
  | some m => exact Nat.min_le_right m count

/-- The span that is consumed is that of the source that is consumed. -/
theorem consume?_spanned (t : Token) (start : Nat) (max : Option Nat) :
    (t.spanned start).consume? max =
      some (⟨start, start + byteSize (t.sourceUpTo max)⟩, t.paramsUpTo max) := by
  obtain ⟨m, n, call⟩ := t
  cases call with
  | paren inner closed => exact congrArg (fun sp => some (sp, _)) (full_spanned _ start)
  | directive guard payload => exact congrArg (fun sp => some (sp, _)) (full_spanned _ start)
  | pipe ps =>
    have hle := takes_le max ps.length
    have hcount : ((⟨m, n, .pipe ps⟩ : Token).spanned start).params.length = ps.length :=
      List.length_map _
    unfold Spanned.consume?
    rw [hcount]
    simp only [Token.sourceUpTo, Token.paramsUpTo, Text.byteSize_append, ← Nat.add_assoc]
    show (match Token.takes max ps.length with
      | 0 => some _
      | k + 1 => Option.map _ (endsFrom _ (ps.map Token.segment))[k]?) = _
    cases htakes : Token.takes max ps.length with
    | zero => rfl
    | succ k =>
      have hk : k < (ps.map Token.segment).length := by
        rw [List.length_map]
        omega
      simp only [getElem?_endsFrom hk]
      rfl

/-! ## What stands in the spans -/

section

variable {cs before rest : List Char} {t : Token}

theorem slice?_full (hcs : cs = before ++ (t.source ++ rest)) :
    slice? cs (t.spanned (byteSize before)).full = some t.source := by
  rw [full_spanned, hcs]
  exact slice?_append before t.source rest

theorem slice?_sourceUpTo (hcs : cs = before ++ (t.source ++ rest)) (max : Option Nat) :
    slice? cs ⟨byteSize before, byteSize before + byteSize (t.sourceUpTo max)⟩ =
      some (t.sourceUpTo max) := by
  rw [hcs, ← t.sourceUpTo_append_sourceBeyond max, List.append_assoc]
  exact slice?_append before (t.sourceUpTo max) _

end

/-! ## Slices that are safe -/

/-- A smaller bound takes a part of what a larger one takes. -/
theorem takes_mono {m n : Nat} (hmn : m ≤ n) (count : Nat) :
    Token.takes (some m) count ≤ Token.takes (some n) count := by
  simp only [Token.takes]
  omega

theorem Token.paramsUpTo_isPrefix (t : Token) (max : Option Nat) : t.paramsUpTo max <+: t.params := by
  unfold Token.paramsUpTo
  split
  · exact List.take_prefix _ _
  · exact List.prefix_refl _

theorem Token.paramsUpTo_mono (t : Token) {m n : Nat} (hmn : m ≤ n) :
    t.paramsUpTo (some m) <+: t.paramsUpTo (some n) := by
  unfold Token.paramsUpTo
  split
  · exact List.take_prefix_take_left (takes_mono hmn _)
  · exact List.prefix_refl _

theorem Token.sourceUpTo_mono (t : Token) {m n : Nat} (hmn : m ≤ n) :
    t.sourceUpTo (some m) <+: t.sourceUpTo (some n) := by
  unfold Token.sourceUpTo
  split
  · next ps _ =>
    obtain ⟨more, hmore⟩ := List.take_prefix_take_left (l := t.tail) (takes_mono hmn ps.length)
    exact ⟨more.flatten, by rw [List.append_assoc, ← List.flatten_append, hmore]⟩
  · exact List.prefix_refl _

theorem Token.sourceUpTo_none (t : Token) : t.sourceUpTo none = t.source := by
  obtain ⟨m, n, call⟩ := t
  cases call with
  | pipe ps =>
    show Token.head _ ++ ((ps.map segment).take ps.length).flatten = _
    rw [List.take_of_length_le (Nat.le_of_eq (List.length_map _))]
    rfl
  | paren inner closed => rfl
  | directive guard payload => rfl

theorem Token.paramsUpTo_none (t : Token) : t.paramsUpTo none = t.params := by
  obtain ⟨m, n, call⟩ := t
  cases call with
  | pipe ps => exact List.take_of_length_le (Nat.le_of_eq (List.length_map _))
  | paren inner closed => rfl
  | directive guard payload => rfl

/-- A prefix is no longer in bytes either. -/
theorem byteSize_le_of_isPrefix {part cs : List Char} (h : part <+: cs) :
    byteSize part ≤ byteSize cs := by
  obtain ⟨more, rfl⟩ := h
  rw [Text.byteSize_append]
  exact Nat.le_add_right _ _

theorem Token.sourceUpTo_isPrefix (t : Token) (max : Option Nat) : t.sourceUpTo max <+: t.source :=
  ⟨t.sourceBeyond max, t.sourceUpTo_append_sourceBeyond max⟩

theorem Token.head_isPrefix (t : Token) (max : Option Nat) : t.head <+: t.sourceUpTo max := by
  unfold Token.sourceUpTo Token.source
  split <;> exact List.prefix_append _ _

/-- Each end of a token lies behind a part of its source. -/
theorem exists_prefix_of_mem_ends {t : Token} {start p : Nat} (hp : p ∈ (t.spanned start).ends) :
    ∃ part, part <+: t.source ∧ p = start + byteSize part := by
  obtain ⟨m, n, call⟩ := t
  cases call with
  | pipe ps =>
    obtain ⟨k, rfl⟩ := exists_of_mem_endsFrom hp
    refine ⟨Token.head ⟨m, n, .pipe ps⟩ ++ ((ps.map Token.segment).take k).flatten,
      (List.prefix_append_right_inj _).2 ⟨((ps.map Token.segment).drop k).flatten, ?_⟩,
      by rw [Text.byteSize_append, Nat.add_assoc]; rfl⟩
    rw [← List.flatten_append, List.take_append_drop]
    rfl
  | paren inner closed => cases hp
  | directive guard payload =>
    rcases List.mem_cons.1 hp with rfl | hp
    · exact ⟨_, List.prefix_append _ _, rfl⟩
    · obtain rfl := List.mem_singleton.1 hp
      exact ⟨_, (List.prefix_append_right_inj _).2 (List.prefix_append payload _),
        by rw [Text.byteSize_append, Nat.add_assoc]⟩

/-- No call has an empty name. -/
theorem IsCallAt.name_ne_empty {m : Char} {cs : List Char} {t : Token} (h : IsCallAt m cs t) :
    t.name ≠ "" := by
  have hne {n : List Char} (hn : n ≠ []) : Text.upper (String.ofList n) ≠ "" := by
    intro hempty
    have hlist := congrArg String.toList hempty
    rw [Text.upper, String.toList_ofList, String.toList_ofList] at hlist
    exact hn (List.map_eq_nil_iff.1 hlist)
  rcases h with ⟨d, -, -, hd, -, -, -, hname, -⟩ | ⟨n, -, -, hn, -, -, -, -, hname, -⟩ |
    ⟨n, -, -, hn, -, -, -, hname, -⟩ <;> rw [hname]
  · rw [← upper_directiveName hd]
    exact hne (List.cons_ne_nil d [])
  · exact hne hn.1
  · exact hne hn.1

/-- The parameters of a pipe call end one behind the other, all behind the head. -/
theorem Token.pipe_ends (t : Token) (start : Nat) (hform : (t.spanned start).form = .pipe) :
    (t.spanned start).ends.length = (t.spanned start).params.length ∧
      ((t.spanned start).head.stop :: (t.spanned start).ends).Pairwise (· < ·) := by
  obtain ⟨m, n, call⟩ := t
  cases call with
  | pipe ps =>
    refine ⟨(length_endsFrom _ _).trans ?_, pairwise_endsFrom _ fun part hpart => ?_⟩
    · show (ps.map Token.segment).length = (ps.map String.ofList).length
      rw [List.length_map, List.length_map]
    · obtain ⟨v, -, rfl⟩ := List.mem_map.1 hpart
      simp [Token.segment]
  | paren inner closed => cases hform
  | directive guard payload => cases hform

/-- What a trigger consumes of a token begins where the token does, and is a part of it. -/
theorem Token.consume_within (t : Token) (start : Nat) (max : Option Nat) :
    ∃ sp ps, (t.spanned start).consume? max = some (sp, ps) ∧ sp.start = start ∧
      sp.start < sp.stop ∧ (∃ part, part <+: t.source ∧ sp.stop = start + byteSize part) ∧
      ps <+: (t.spanned start).params := by
  have hhead : 0 < byteSize t.head := byteSize_pos (by simp [Token.head])
  have hupTo := byteSize_le_of_isPrefix (t.head_isPrefix max)
  refine ⟨_, _, consume?_spanned t start max, rfl, ?_, ⟨_, t.sourceUpTo_isPrefix max, rfl⟩,
    t.paramsUpTo_isPrefix max⟩
  show start < start + byteSize (t.sourceUpTo max)
  omega

/-- The spans of a token are safe to slice in a text: each starts and stops between characters of it,
those that bounds on the parameters give included. -/
structure Spanned.SafeIn (s : String) (t : Spanned) : Prop where
  nonempty : t.full.start < t.full.stop
  inBounds : t.full.stop ≤ s.utf8ByteSize
  start_valid : String.Pos.Raw.IsValid s ⟨t.full.start⟩
  stop_valid : String.Pos.Raw.IsValid s ⟨t.full.stop⟩
  /-- The head is the beginning of the token. -/
  head_start : t.head.start = t.full.start
  head_stop : t.head.start < t.head.stop ∧ t.head.stop ≤ t.full.stop
  head_valid : String.Pos.Raw.IsValid s ⟨t.head.stop⟩
  ends_valid : ∀ p ∈ t.ends, String.Pos.Raw.IsValid s ⟨p⟩
  marker : ∃ m rest, slice? s.toList t.full = some (m :: rest) ∧ isMarker m = true
  name : t.name ≠ ""
  /-- The parameters of a pipe call end one behind the other, all behind the head. -/
  pipe : t.form = .pipe →
    t.ends.length = t.params.length ∧ (t.head.stop :: t.ends).Pairwise (· < ·)
  consume : ∀ max, ∃ sp ps, t.consume? max = some (sp, ps) ∧ sp.start = t.full.start ∧
    sp.start < sp.stop ∧ sp.stop ≤ t.full.stop ∧ String.Pos.Raw.IsValid s ⟨sp.stop⟩ ∧
    ps <+: t.params
  consume_mono : ∀ m n, m ≤ n → ∀ sp ps sp' ps', t.consume? (some m) = some (sp, ps) →
    t.consume? (some n) = some (sp', ps') → sp.stop ≤ sp'.stop ∧ ps <+: ps'
  consume_all : t.consume? none = some (t.full, t.params)
  consume_whole : t.form ≠ .pipe → ∀ max, t.consume? max = some (t.full, t.params)

/-- The tokens of a text are safe to slice in it. -/
theorem spanned_safeIn {s : String} {p : Nat} {t : Token} (h : (p, t) ∈ located s) :
    (t.spanned p).SafeIn s := by
  obtain ⟨pre, m, rest, hs, rfl, hm, hcall⟩ := beginsAt_of_mem_located h
  obtain ⟨post, hpost⟩ := hcall.source_append
  have hvalid {part : List Char} (hpart : part <+: t.source) :
      String.Pos.Raw.IsValid s ⟨byteSize pre + byteSize part⟩ := by
    obtain ⟨more, hmore⟩ := hpart
    refine isValid_iff.2 ⟨pre ++ part, more ++ post, ?_, Text.byteSize_append _ _⟩
    rw [hs, hpost, ← hmore]
    simp only [List.append_assoc]
  have hfull := full_spanned t (byteSize pre)
  have hhead : byteSize t.head ≤ byteSize t.source :=
    byteSize_le_of_isPrefix (List.prefix_append _ _)
  have hpos : 0 < byteSize t.head := byteSize_pos (by simp [Token.head])
  have hslice : slice? s.toList (t.spanned (byteSize pre)).full = some t.source :=
    slice?_full (by rw [hs, hpost])
  constructor
  case nonempty =>
    rw [hfull]
    show byteSize pre < byteSize pre + byteSize t.source
    omega
  case inBounds =>
    rw [hfull, ← String.ofList_toList (s := s), utf8ByteSize_ofList, hs, hpost]
    simp only [Text.byteSize_append]
    omega
  case start_valid =>
    rw [hfull]
    exact hvalid List.nil_prefix
  case stop_valid =>
    rw [hfull]
    exact hvalid (List.prefix_refl _)
  case head_start => rfl
  case head_stop =>
    rw [hfull]
    show byteSize pre < byteSize pre + byteSize t.head ∧ byteSize pre + byteSize t.head ≤ _
    exact ⟨by omega, Nat.add_le_add_left hhead _⟩
  case head_valid => exact hvalid (List.prefix_append _ _)
  case ends_valid =>
    intro p hp
    obtain ⟨part, hpart, rfl⟩ := exists_prefix_of_mem_ends hp
    exact hvalid hpart
  case marker =>
    have hsource : t.source = t.marker :: t.source.tail := rfl
    rw [hsource, List.cons_append] at hpost
    refine ⟨m, t.source.tail, ?_, hm⟩
    rw [hslice, hsource, (List.cons.inj hpost).1]
    rfl
  case name => exact hcall.name_ne_empty
  case pipe => exact t.pipe_ends (byteSize pre)
  case consume =>
    intro max
    obtain ⟨sp, ps, hconsume, hstart, hlt, ⟨part, hpart, hstop⟩, hparams⟩ :=
      t.consume_within (byteSize pre) max
    refine ⟨sp, ps, hconsume, hstart, hlt, ?_, hstop ▸ hvalid hpart, hparams⟩
    rw [hfull, hstop]
    exact Nat.add_le_add_left (byteSize_le_of_isPrefix hpart) _
  case consume_mono =>
    intro m n hmn sp ps sp' ps' hsp hsp'
    rw [consume?_spanned] at hsp hsp'
    cases hsp
    cases hsp'
    exact ⟨Nat.add_le_add_left (byteSize_le_of_isPrefix (t.sourceUpTo_mono hmn)) _,
      t.paramsUpTo_mono hmn⟩
  case consume_all =>
    rw [consume?_spanned, Token.sourceUpTo_none, Token.paramsUpTo_none, hfull]
    rfl
  case consume_whole =>
    intro hform max
    unfold Spanned.consume?
    split
    · next hpipe => exact absurd hpipe hform
    · rfl

end Stencil
