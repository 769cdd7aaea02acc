import Stencil.Proofs.Path.Components

/-!
# Paths below others

A path that begins with the components of another one has a rest below it (`below`). The rest is a
part of the path as it is written, and names what the path names behind those components
(`below_rest`). So paths below one directory name the same just if their rests do. A rest that is
written as its components are (`Neat`) is known by them; other rests may differ in what counts for
nothing.
-/

namespace Stencil

namespace Path

variable {p q base : Path} {s : List Char} {ss ts : List (List Char)}
  {cs : List Component}

/-! ## Components of segments -/

/-- What segments name. -/
def plainOf (ss : List (List Char)) : List Component := (ss.filter (!idle ·)).map ofSegment

theorem plainOf_append : plainOf (ss ++ ts) = plainOf ss ++ plainOf ts := by
  rw [plainOf, List.filter_append, List.map_append, plainOf, plainOf]

theorem plainOf_idle (hs : idle s = true) : plainOf (s :: ss) = plainOf ss := by
  rw [plainOf, List.filter_cons_of_neg (by simp [hs]), plainOf]

theorem plainOf_named (hs : idle s = false) : plainOf (s :: ss) = ofSegment s :: plainOf ss := by
  rw [plainOf, List.filter_cons_of_pos (by simp [hs]), List.map_cons, plainOf]

theorem plainOf_eq_nil (hss : ∀ s ∈ ss, idle s = true) : plainOf ss = [] := by
  rw [plainOf, List.filter_eq_nil_iff.2 fun s hs => by simp [hss s hs]]
  rfl

/-- Idle segments at the end name nothing. -/
theorem plainOf_dropIdleEnd (ss : List (List Char)) : plainOf (dropIdleEnd ss) = plainOf ss := by
  obtain ⟨ends, hsplit, hends⟩ := exists_dropIdleEnd ss
  have happend := congrArg plainOf hsplit
  rw [plainOf_append, plainOf_eq_nil hends, List.append_nil] at happend
  exact happend.symm

theorem mem_of_mem_dropIdleEnd (hs : s ∈ dropIdleEnd ss) : s ∈ ss := by
  obtain ⟨ends, hsplit, -⟩ := exists_dropIdleEnd ss
  rw [hsplit]
  exact List.mem_append_left _ hs

theorem head?_of_head?_dropIdleEnd (hs : (dropIdleEnd ss).head? = some s) :
    ss.head? = some s := by
  obtain ⟨ends, hsplit, -⟩ := exists_dropIdleEnd ss
  rw [hsplit, List.head?_append, hs]
  rfl

/-- The first segment names something, if there is one. -/
def BeginsNamed (ss : List (List Char)) : Prop := ∀ s ∈ ss.head?, idle s = false

theorem BeginsNamed.dropIdleEnd (h : BeginsNamed ss) : BeginsNamed (dropIdleEnd ss) :=
  fun s hs => h s (head?_of_head?_dropIdleEnd hs)

/-- Segments of which the first one names something name just what a path made of them does. -/
theorem components_ofSegments (hss : ∀ s ∈ ss, '/' ∉ s) (h : BeginsNamed ss) :
    (ofSegments ss).components = plainOf ss := by
  cases ss with
  | nil => rfl
  | cons s ss =>
    have hs : idle s = false := h s rfl
    have hsegments := segments_ofSegments (List.cons_ne_nil s ss) hss
    have hrelative : (ofSegments (s :: ss)).isAbsolute = false := by
      rw [Bool.eq_false_iff]
      intro habsolute
      obtain ⟨t, ts, habsolute⟩ := isAbsolute_iff.1 habsolute
      rw [hsegments] at habsolute
      rw [(List.cons.inj habsolute).1] at hs
      cases hs
    have hfront : (ofSegments (s :: ss)).front = none := by
      rw [front, hrelative, hsegments, if_neg Bool.false_ne_true, List.head?_cons, if_neg]
      rw [beq_iff_eq, Option.some_inj]
      rintro rfl
      cases hs
    rw [components_eq, hfront, plain, hsegments]
    rfl

/-- What is made of some segments of a path in a row is a part of its text. -/
theorem isInfix_ofSegments (lead ends : List (List Char)) (h : p.segments = lead ++ ss ++ ends) :
    (ofSegments ss).toList <:+: p.toList := by
  have hleading : ['/'].intercalate ss <+: ['/'].intercalate (ss ++ ends) :=
    intercalate_leading '/' ss ends
  have hbehind : ['/'].intercalate (ss ++ ends) <:+ p.toList := by
    rw [p.toList_eq_intercalate, h, List.append_assoc]
    by_cases hlead : lead = []
    · rw [hlead]
      exact List.suffix_refl _
    · by_cases hrest : ss ++ ends = []
      · rw [hrest]
        exact List.nil_suffix
      · rw [intercalate_append hlead hrest]
        exact ⟨['/'].intercalate lead ++ ['/'], by simp⟩
  rw [ofSegments, String.toList_ofList]
  exact hleading.isInfix.trans hbehind.isInfix

/-! ## What stands in front -/

theorem segments_of_here (hp : p.front = some .here) : ∃ ss, p.segments = ['.'] :: ss := by
  rw [front] at hp
  split at hp
  · cases hp
  · split at hp
    · next hhead => exact List.head?_eq_some_iff.1 (beq_iff_eq.1 hhead)
    · cases hp

/-- What stands in front of a path is an idle segment. -/
theorem segments_of_front {c : Component} (hp : p.front = some c) :
    ∃ s ss, p.segments = s :: ss ∧ idle s = true := by
  rcases p.front_cases with ⟨-, habsolute⟩ | ⟨-, hnone | hhere⟩
  · obtain ⟨t, ts, hsegments⟩ := isAbsolute_iff.1 habsolute
    exact ⟨[], _, hsegments, rfl⟩
  · rw [hp] at hnone
    cases hnone
  · obtain ⟨ss, hsegments⟩ := segments_of_here hhere
    exact ⟨_, ss, hsegments, rfl⟩

/-! ## Rests -/

/-- `rest` is what the path `p` has below `base`. -/
structure Rest (base p rest : Path) : Prop where
  components : p.components = base.components ++ rest.components
  written : rest.toList <:+: p.toList

/-- Segments of a path in a row make a rest of it when the first one names something and what all of
them name is what is missing. -/
theorem rest_ofSegments (lead ends : List (List Char))
    (hsegments : p.segments = lead ++ ss ++ ends) (hss : BeginsNamed ss)
    (hcomponents : p.components = base.components ++ plainOf ss) : Rest base p (ofSegments ss) := by
  refine ⟨?_, isInfix_ofSegments lead ends hsegments⟩
  rw [components_ofSegments _ hss, hcomponents]
  exact fun s hs => not_mem_of_mem_segments (hsegments ▸
    List.mem_append_left _ (List.mem_append_right _ hs))

/-- The same holds of segments without the idle ones at their end. -/
theorem rest_dropIdleEnd (lead : List (List Char)) (hsegments : p.segments = lead ++ ss)
    (hss : BeginsNamed ss) (hcomponents : p.components = base.components ++ plainOf ss) :
    Rest base p (ofSegments (dropIdleEnd ss)) := by
  obtain ⟨ends, hsplit, -⟩ := exists_dropIdleEnd ss
  refine rest_ofSegments lead ends ?_ hss.dropIdleEnd ?_
  · rw [List.append_assoc, ← hsplit, hsegments]
  · rw [plainOf_dropIdleEnd, hcomponents]

theorem components_root : Path.components "/" = [.root] := by decide +kernel

/-- An absolute path without the idle segments at its end names the same, -/
theorem tidyEnd_absolute (hbase : base.components = []) (hp : p.isAbsolute = true) :
    Rest base p p.tidyEnd := by
  obtain ⟨t, ts, hsegments⟩ := isAbsolute_iff.1 hp
  have hfront : p.front = some .root := if_pos hp
  obtain ⟨ends, hsplit, hends⟩ := exists_dropIdleEnd p.segments
  rw [tidyEnd, hfront]
  simp only [List.isEmpty_iff]
  by_cases hnone : dropIdleEnd p.segments = []
  · have hplain : p.plain = [] := plainOf_eq_nil (by
      rw [hsplit, hnone]
      exact hends)
    rw [if_pos hnone]
    refine ⟨?_, ?_⟩
    · rw [hbase, components_eq, hfront, hplain, components_root]
      rfl
    · rw [p.toList_eq_intercalate, hsegments, List.intercalate_cons_cons]
      exact (List.prefix_append _ _).isInfix
  · rw [if_neg hnone]
    -- the first segment is kept, and the path stays absolute
    obtain ⟨s, ss, hkept⟩ := List.exists_cons_of_ne_nil hnone
    have hs : s = [] := by
      rw [hsplit, hkept] at hsegments
      exact (List.cons.inj hsegments).1
    have hss : ss ≠ [] := by
      rintro rfl
      exact dropIdleEnd_ne_empty p.segments (by rw [hkept, hs])
    obtain ⟨u, us, rfl⟩ := List.exists_cons_of_ne_nil hss
    have hmade : (ofSegments (dropIdleEnd p.segments)).segments = dropIdleEnd p.segments :=
      segments_ofSegments hnone fun v hv => not_mem_of_mem_segments (mem_of_mem_dropIdleEnd hv)
    have habsolute : (ofSegments (dropIdleEnd p.segments)).isAbsolute = true :=
      isAbsolute_iff.2 ⟨u, us, by rw [hmade, hkept, hs]⟩
    refine ⟨?_, isInfix_ofSegments [] ends (by simpa using hsplit)⟩
    have hfront' : (ofSegments (dropIdleEnd p.segments)).front = some .root := if_pos habsolute
    rw [hbase, components_eq, components_eq, hfront, hfront', plain, plain, hmade]
    exact congrArg _ (plainOf_dropIdleEnd p.segments).symm

/-- and so does one with a `.` in front, -/
theorem tidyEnd_here (hbase : base.components = []) (hp : p.front = some .here) :
    Rest base p p.tidyEnd := by
  obtain ⟨ss, hsegments⟩ := segments_of_here hp
  obtain ⟨ends, hsplit, -⟩ := exists_dropIdleEnd ss
  have hmade : (ofSegments (['.'] :: dropIdleEnd ss)).segments = ['.'] :: dropIdleEnd ss :=
    segments_ofSegments (List.cons_ne_nil _ _) fun s hs => not_mem_of_mem_segments (by
      rw [hsegments]
      exact List.mem_cons.2 ((List.mem_cons.1 hs).imp_right mem_of_mem_dropIdleEnd))
  have hfront : (ofSegments (['.'] :: dropIdleEnd ss)).front = some .here := by
    rw [front, if_neg, hmade]
    · rfl
    · intro habsolute
      obtain ⟨t, ts, habsolute⟩ := isAbsolute_iff.1 habsolute
      rw [hmade] at habsolute
      cases habsolute
  rw [tidyEnd, hp]
  simp only [hsegments]
  refine ⟨?_, isInfix_ofSegments [] ends ?_⟩
  · rw [hbase, components_eq, components_eq, hfront, hp, plain, plain, hmade, hsegments]
    have hidle : idle ['.'] = true := rfl
    have hplain : plainOf (['.'] :: ss) = plainOf (['.'] :: dropIdleEnd ss) := by
      rw [plainOf_idle hidle, plainOf_idle hidle, plainOf_dropIdleEnd]
    exact congrArg _ hplain
  · rw [hsegments, List.nil_append, List.cons_append, ← hsplit]

/-- and one with nothing in front. -/
theorem tidyEnd_relative (hbase : base.components = []) (hp : p.front = none) :
    Rest base p p.tidyEnd := by
  have hbegins : BeginsNamed (dropIdleEnd p.segments) := by
    intro s hs
    have hhead := head?_of_head?_dropIdleEnd hs
    have hdot : s ≠ ['.'] := by
      rintro rfl
      rw [front, isAbsolute_of_front hp, hhead] at hp
      cases hp
    have hempty : s ≠ [] := by
      rintro rfl
      obtain ⟨ss, hsegments⟩ := List.head?_eq_some_iff.1 hhead
      cases ss with
      | nil =>
        rw [hsegments] at hs
        cases hs
      | cons t ts =>
        have habsolute := isAbsolute_iff.2 ⟨t, ts, hsegments⟩
        rw [isAbsolute_of_front hp] at habsolute
        cases habsolute
    simp [idle, hempty, hdot]
  obtain ⟨ends, hsplit, -⟩ := exists_dropIdleEnd p.segments
  rw [tidyEnd, hp]
  refine rest_ofSegments [] ends (by simpa using hsplit) hbegins ?_
  rw [hbase, components_eq, hp, plainOf_dropIdleEnd]
  rfl

/-- The components that segments begin with can be dropped, and idle segments behind them. -/
theorem exists_dropComponents (h : cs <+: plainOf ss) : ∃ lead rest,
    dropComponents cs ss = some rest ∧ ss = lead ++ rest ∧ plainOf lead = cs ∧
      BeginsNamed rest := by
  induction ss generalizing cs with
  | nil =>
    obtain rfl : cs = [] := List.prefix_nil.1 h
    exact ⟨[], [], rfl, rfl, rfl, fun s hs => nomatch hs⟩
  | cons s ss ih =>
    cases cs with
    | nil =>
      refine ⟨(s :: ss).takeWhile idle, _, rfl, List.takeWhile_append_dropWhile.symm,
        plainOf_eq_nil fun t ht => List.all_eq_true.1 List.all_takeWhile t ht, fun t ht => ?_⟩
      have hhead := List.head?_dropWhile_not idle (s :: ss)
      rw [Option.mem_def.1 ht] at hhead
      exact hhead
    | cons c cs =>
      by_cases hs : idle s = true
      · rw [plainOf_idle hs] at h
        obtain ⟨lead, rest, hrest, hsplit, hlead, hbegins⟩ := ih h
        refine ⟨s :: lead, rest, ?_, by rw [hsplit, List.cons_append], ?_, hbegins⟩
        · rw [dropComponents, if_pos hs, hrest]
        · rw [plainOf_idle hs, hlead]
      · have hs : idle s = false := Bool.eq_false_iff.2 hs
        rw [plainOf_named hs, List.cons_prefix_cons] at h
        obtain ⟨rfl, h⟩ := h
        obtain ⟨lead, rest, hrest, hsplit, hlead, hbegins⟩ := ih h
        refine ⟨s :: lead, rest, ?_, by rw [hsplit, List.cons_append], ?_, hbegins⟩
        · rw [dropComponents, hs, if_neg Bool.false_ne_true, if_pos rfl, hrest]
        · rw [plainOf_named hs, hlead]

/-- A path that begins with the components of another one has a rest below that one. -/
theorem stripBase_rest (h : base.components <+: p.components) :
    ∃ rest, stripBase p base = some rest ∧ Rest base p rest := by
  rw [stripBase]
  cases hbase : base.components with
  | nil =>
    refine ⟨_, rfl, ?_⟩
    rcases p.front_cases with ⟨-, hp⟩ | ⟨-, hp | hp⟩
    · exact tidyEnd_absolute hbase hp
    · exact tidyEnd_relative hbase hp
    · exact tidyEnd_here hbase hp
  | cons c cs =>
    rw [hbase, components_eq] at h
    cases hp : p.front with
    | none =>
      rw [hp] at h
      obtain ⟨lead, rest, hrest, hsplit, hlead, hbegins⟩ := exists_dropComponents h
      refine ⟨_, by simp only [hrest, Option.map_some], rest_dropIdleEnd lead hsplit hbegins ?_⟩
      rw [hbase, ← hlead, ← plainOf_append, ← hsplit, components_eq, hp]
      rfl
    | some f =>
      obtain ⟨s, ss, hsegments, hs⟩ := segments_of_front hp
      have hplain : p.plain = plainOf ss := by
        rw [plain, hsegments]
        exact plainOf_idle hs
      rw [hp, hplain, Option.toList_some, List.singleton_append, List.cons_prefix_cons] at h
      obtain ⟨rfl, h⟩ := h
      obtain ⟨lead, rest, hrest, hsplit, hlead, hbegins⟩ := exists_dropComponents h
      have hdropped : dropComponents cs (p.segments.drop 1) = some rest := by
        rw [hsegments]
        exact hrest
      refine ⟨_, by simp only [hdropped, Option.map_some, if_true],
        rest_dropIdleEnd (s :: lead) (by rw [hsegments, hsplit, List.cons_append]) hbegins ?_⟩
      rw [hbase, components_eq, hp, hplain, hsplit, plainOf_append, hlead]
      rfl

/-- The rest of a path below another one, or all of it when it does not begin with that one. -/
def below (base p : Path) : Path := (stripBase p base).getD p

theorem below_rest (h : base.components <+: p.components) : Rest base p (below base p) := by
  obtain ⟨rest, hstrip, hrest⟩ := stripBase_rest h
  rwa [below, hstrip]

/-- Paths below one directory are the same just if their rests are. -/
theorem components_eq_iff_below (hp : base.components <+: p.components)
    (hq : base.components <+: q.components) :
    p.components = q.components ↔ (below base p).components = (below base q).components := by
  rw [(below_rest hp).components, (below_rest hq).components, List.append_cancel_left_eq]

/-! ## Neat paths -/

/-- The text between separators that stands for a component. -/
def segmentOf : Component → List Char
  | .root => []
  | .here => ['.']
  | .parent => ['.', '.']
  | .name s => s.toList

/-- The path of some components, with nothing in it that counts for nothing. -/
def ofComponents : List Component → Path
  | [.root] => "/"
  | cs => ofSegments (cs.map segmentOf)

/-- The path is written as its components are. -/
def Neat (p : Path) : Prop := p = ofComponents p.components

instance (p : Path) : Decidable p.Neat := inferInstanceAs (Decidable (p = _))

theorem Neat.eq_of_components (hp : p.Neat) (hq : q.Neat) (h : p.components = q.components) :
    p = q :=
  calc p = ofComponents p.components := hp
    _ = ofComponents q.components := by rw [h]
    _ = q := hq.symm

theorem segmentOf_ofSegment (s : List Char) : segmentOf (ofSegment s) = s := by
  rw [ofSegment]
  split
  · next h => exact (beq_iff_eq.1 h).symm
  · exact String.toList_ofList

/-- A path in which every segment names something is neat. -/
theorem neat_of_named (h : ∀ s ∈ p.segments, idle s = false) : p.Neat := by
  have hmade : ofSegments p.segments = p := by
    rw [ofSegments, ← p.toList_eq_intercalate, String.ofList_toList]
  have hplain : plainOf p.segments = p.segments.map ofSegment := by
    rw [plainOf, List.filter_eq_self.2 fun s hs => by simp [h s hs]]
  have hcomponents : p.components = p.segments.map ofSegment := by
    rw [← hplain, ← hmade, components_ofSegments (fun s hs => not_mem_of_mem_segments hs)
      fun s hs => h s (List.mem_of_mem_head? hs), hmade]
  have hroot : p.components ≠ [.root] := by
    intro hroot
    obtain ⟨s, -, hs⟩ := List.mem_map.1 (hcomponents ▸ hroot ▸ List.mem_singleton_self _)
    rw [ofSegment] at hs
    split at hs <;> cases hs
  have hprinted : ofComponents p.components = ofSegments (p.components.map segmentOf) := by
    rw [ofComponents]
    exact fun h => hroot h
  rw [Neat, hprinted, hcomponents, List.map_map]
  simp [Function.comp_def, segmentOf_ofSegment, hmade]

end Path

end Stencil
