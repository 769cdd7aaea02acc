import Stencil.Token.Scan

/-!
# Segments

A parameter of a pipe call and the guard of a directive are written as a body and the `|` that ends
it. `IsBody` says, by what stands directly in front of each `|`, which texts such a `|` ends;
`unescape` is what a body stands for. `readSegment_eq_some_iff` says that reading a segment finds
exactly these, and `readSegments_eq_iff` that a run of segments is read as far as it goes.
-/

namespace Stencil

/-- A text that the `|` behind it ends, and no earlier one: every `|` in it stands directly behind
a `\`, and its last character is no `\`. -/
def IsBody (u : List Char) : Prop :=
  (∀ a b, u = a ++ '|' :: b → a.getLast? = some '\\') ∧ u.getLast? ≠ some '\\'

/-- A text without a marker. -/
def MarkerFree (u : List Char) : Prop := ∀ c ∈ u, isMarker c = false

/-- A text with every `\|` read as a literal `|`. -/
def unescape : List Char → List Char
  | [] => []
  | '\\' :: '|' :: cs => '|' :: unescape cs
  | c :: cs => c :: unescape cs

/-! ## Bodies -/

theorem isBody_nil : IsBody [] := ⟨fun a b h => by simp at h, by simp⟩

/-- A `|` that nothing precedes ends the segment at once. -/
theorem not_isBody_separator (u : List Char) : ¬ IsBody ('|' :: u) :=
  fun h => by simpa using h.1 [] u rfl

/-- An escaped `|` may stand in front of a body. -/
theorem isBody_escaped {u : List Char} : IsBody ('\\' :: '|' :: u) ↔ IsBody u := by
  constructor
  · rintro ⟨hin, hend⟩
    refine ⟨fun a b h => ?_, fun h => hend (by simp [List.getLast?_cons, h])⟩
    have := hin ('\\' :: '|' :: a) b (by simp [h])
    cases ha : a.getLast? with
    | none => simp [List.getLast?_cons, ha] at this
    | some d => simpa [List.getLast?_cons, ha] using this
  · rintro ⟨hin, hend⟩
    refine ⟨fun a b h => ?_, fun h => ?_⟩
    · rcases a with _ | ⟨d, _ | ⟨d', a⟩⟩
      · simp at h
      · simp only [List.cons_append, List.nil_append, List.cons.injEq] at h
        simp [← h.1]
      · simp only [List.cons_append, List.cons.injEq] at h
        have := hin a b h.2.2
        simp [List.getLast?_cons, this]
    · cases hu : u.getLast? with
      | none => simp [List.getLast?_cons, hu] at h
      | some d => exact hend (by simpa [List.getLast?_cons, hu] using h)

/-- Any other character may stand in front of a body, a `\` where no `|` follows it. -/
theorem isBody_cons {c : Char} {u : List Char} (hc : c ≠ '|')
    (hb : c = '\\' → ∃ d v, u = d :: v ∧ d ≠ '|') : IsBody (c :: u) ↔ IsBody u := by
  constructor
  · rintro ⟨hin, hend⟩
    refine ⟨fun a b h => ?_, fun h => hend (by simp [List.getLast?_cons, h])⟩
    have hlast := hin (c :: a) b (by simp [h])
    cases ha : a.getLast? with
    | some d => simpa [List.getLast?_cons, ha] using hlast
    | none =>
      -- then `c` itself would be the `\` in front of the `|`
      obtain rfl := List.getLast?_eq_none_iff.1 ha
      obtain ⟨d, v, rfl, hd⟩ := hb (by simpa using hlast)
      simp only [List.nil_append, List.cons.injEq] at h
      exact absurd h.1 hd
  · rintro ⟨hin, hend⟩
    refine ⟨fun a b h => ?_, fun h => ?_⟩
    · cases a with
      | nil => simp_all
      | cons d a =>
        simp only [List.cons_append, List.cons.injEq] at h
        have := hin a b h.2
        simp [List.getLast?_cons, this]
    · cases hu : u.getLast? with
      | some d => exact hend (by simpa [List.getLast?_cons, hu] using h)
      | none =>
        obtain rfl := List.getLast?_eq_none_iff.1 hu
        obtain ⟨d, v, hv, -⟩ := hb (by simpa using h)
        cases hv

/-- Any other character stands for itself, a `\` where no `|` follows it. -/
theorem unescape_cons {c : Char} {u : List Char}
    (hb : c = '\\' → ∀ v, u ≠ '|' :: v) : unescape (c :: u) = c :: unescape u := by
  rw [unescape]
  rintro v rfl rfl
  exact hb rfl v rfl

/-! ## Reading segments -/

/-- At the beginning of `cs` stands a body, with a `|` and `rest` behind it, and it stands for `v`.
With `stop`, it holds no marker. -/
def BeginsSegment (stop : Bool) (cs v rest : List Char) : Prop :=
  ∃ u, cs = u ++ '|' :: rest ∧ IsBody u ∧ v = unescape u ∧ (stop = true → MarkerFree u)

section

variable {stop : Bool} {cs v rest : List Char}

theorem not_beginsSegment_nil : ¬ BeginsSegment stop [] v rest := by
  rintro ⟨u, hcs, -⟩
  simp at hcs

/-- A `|` ends the empty body. -/
theorem beginsSegment_separator : BeginsSegment stop ('|' :: cs) v rest ↔ v = [] ∧ cs = rest := by
  constructor
  · rintro ⟨u, hcs, hu, rfl, -⟩
    cases u with
    | nil => exact ⟨rfl, (List.cons.inj hcs).2⟩
    | cons d u =>
      obtain rfl : '|' = d := (List.cons.inj hcs).1
      exact absurd hu (not_isBody_separator u)
  · rintro ⟨rfl, rfl⟩
    exact ⟨[], rfl, isBody_nil, rfl, fun _ c hc => absurd hc List.not_mem_nil⟩

/-- An escaped `|` belongs to the body, and stands for a `|`. -/
theorem beginsSegment_escaped : BeginsSegment stop ('\\' :: '|' :: cs) v rest ↔
    ∃ w, v = '|' :: w ∧ BeginsSegment stop cs w rest := by
  constructor
  · rintro ⟨u, hcs, hu, rfl, hm⟩
    rcases u with _ | ⟨d, _ | ⟨d', u⟩⟩
    · simp at hcs
    · simp only [List.cons_append, List.nil_append, List.cons.injEq] at hcs
      exact absurd (by simp [← hcs.1]) hu.2
    · simp only [List.cons_append, List.cons.injEq] at hcs
      obtain ⟨rfl, rfl, rfl⟩ := hcs
      exact ⟨unescape u, rfl, u, rfl, isBody_escaped.1 hu, rfl,
        fun hs c hc => hm hs c (by simp [hc])⟩
  · rintro ⟨w, rfl, u, rfl, hu, rfl, hm⟩
    refine ⟨'\\' :: '|' :: u, rfl, isBody_escaped.2 hu, rfl, fun hs c hc => ?_⟩
    rcases List.mem_cons.1 hc with rfl | hc
    · rfl
    · rcases List.mem_cons.1 hc with rfl | hc
      · rfl
      · exact hm hs c hc

/-- Any other character belongs to the body, unless it is a marker where there may be none. -/
theorem beginsSegment_cons {c : Char} (hc : c ≠ '|') (hplain : c = '\\' → ∀ ds, cs ≠ '|' :: ds) :
    BeginsSegment stop (c :: cs) v rest ↔
      (stop = true → isMarker c = false) ∧ ∃ w, v = c :: w ∧ BeginsSegment stop cs w rest := by
  -- what follows `c` in the text, and so in a body, begins with no `|` where `c` is a `\`
  have hfollow {u : List Char} (hcs : cs = u ++ '|' :: rest) (hb : c = '\\') :
      ∃ d w, u = d :: w ∧ d ≠ '|' := by
    cases u with
    | nil => exact absurd hcs (hplain hb rest)
    | cons d w =>
      refine ⟨d, w, rfl, ?_⟩
      rintro rfl
      exact hplain hb (w ++ '|' :: rest) hcs
  have hself {u : List Char} (hcs : cs = u ++ '|' :: rest) :
      unescape (c :: u) = c :: unescape u := by
    refine unescape_cons fun hb w hw => ?_
    obtain ⟨d, w', rfl, hd⟩ := hfollow hcs hb
    exact hd (List.cons.inj hw).1
  constructor
  · rintro ⟨u, hcs, hu, rfl, hm⟩
    cases u with
    | nil => exact absurd (List.cons.inj hcs).1 hc
    | cons d u =>
      simp only [List.cons_append, List.cons.injEq] at hcs
      obtain ⟨rfl, hcs⟩ := hcs
      exact ⟨fun hs => hm hs c List.mem_cons_self, unescape u, hself hcs, u, hcs,
        (isBody_cons hc (hfollow hcs)).1 hu, rfl,
        fun hs e he => hm hs e (List.mem_cons_of_mem c he)⟩
  · rintro ⟨hmarker, w, rfl, u, hcs, hu, rfl, hm⟩
    refine ⟨c :: u, by rw [hcs]; rfl, (isBody_cons hc (hfollow hcs)).2 hu, (hself hcs).symm,
      fun hs d hd => ?_⟩
    rcases List.mem_cons.1 hd with rfl | hd
    · exact hmarker hs
    · exact hm hs d hd

/-- What is read behind a character gives the rest of the segment. -/
theorem map_cons_eq_some_iff {c : Char} {x : Option (List Char × List Char)} :
    (x.map fun r => (c :: r.1, r.2)) = some (v, rest) ↔ ∃ w, v = c :: w ∧ x = some (w, rest) := by
  constructor
  · intro h
    obtain ⟨⟨w, r⟩, rfl, heq⟩ := Option.map_eq_some_iff.1 h
    cases heq
    exact ⟨w, rfl, rfl⟩
  · rintro ⟨w, rfl, rfl⟩
    rfl

/-- A segment is read where a body with a `|` behind it stands, and gives what the body stands
for. With `stop`, the body must hold no marker. -/
theorem readSegment_eq_some_iff :
    readSegment stop cs = some (v, rest) ↔
      ∃ u, cs = u ++ '|' :: rest ∧ IsBody u ∧ v = unescape u ∧ (stop = true → MarkerFree u) := by
  show _ ↔ BeginsSegment stop cs v rest
  fun_induction readSegment stop cs generalizing v with
  | case1 => simpa using not_beginsSegment_nil
  | case2 cs ih => simp only [map_cons_eq_some_iff, beginsSegment_escaped, ih]
  | case3 cs =>
    rw [beginsSegment_separator, Option.some.injEq, Prod.mk.injEq]
    exact and_congr_left fun _ => eq_comm
  | case4 c cs hplain hc hstop =>
    simp only [Bool.and_eq_true] at hstop
    rw [beginsSegment_cons hc fun hb ds => hplain ds hb]
    constructor
    · intro h
      cases h
    · intro h
      rw [h.1 hstop.1] at hstop
      cases hstop.2
  | case5 c cs hplain hc hstop ih =>
    simp only [Bool.and_eq_true, not_and, Bool.not_eq_true] at hstop
    rw [map_cons_eq_some_iff, beginsSegment_cons hc fun hb ds => hplain ds hb]
    simp only [ih, and_iff_right hstop]

end

/-- The body of a segment is written with its literal `|`s escaped. -/
theorem segment_unescape {u : List Char} (hu : IsBody u) :
    Token.segment (unescape u) = u ++ ['|'] := by
  have h : readSegment false (u ++ ['|']) = some (unescape u, []) :=
    readSegment_eq_some_iff.2 ⟨u, rfl, hu, rfl, nofun⟩
  simpa using (readSegment_eq h).symm

/-- A body in front of a `|`, as a parameter of a pipe call has to be: without a marker. -/
def IsParam (u : List Char) : Prop := IsBody u ∧ MarkerFree u

/-- Some parameter is terminated at the beginning of a text. -/
def BeginsParam (cs : List Char) : Prop := ∃ u rest, cs = u ++ '|' :: rest ∧ IsParam u

/-- A parameter is read where one is terminated. -/
theorem readSegment_param {u rest : List Char} (hu : IsParam u) :
    readSegment true (u ++ '|' :: rest) = some (unescape u, rest) :=
  readSegment_eq_some_iff.2 ⟨u, rfl, hu.1, rfl, fun _ => hu.2⟩

/-- No parameter is read where none is terminated. -/
theorem readSegment_eq_none_iff {cs : List Char} :
    readSegment true cs = none ↔ ¬ BeginsParam cs := by
  constructor
  · rintro h ⟨u, rest, rfl, hu⟩
    rw [readSegment_param hu] at h
    cases h
  · intro h
    cases hr : readSegment true cs with
    | none => rfl
    | some r =>
      obtain ⟨u, hcs, hu, -, hm⟩ := readSegment_eq_some_iff.1 hr
      exact absurd ⟨u, r.2, hcs, hu, hm rfl⟩ h

/-- Segments are read as far as they go: what follows them begins with no further one. -/
theorem readSegments_eq_iff {cs rest : List Char} {vs : List (List Char)} :
    readSegments cs = (vs, rest) ↔
      ∃ us : List (List Char), cs = us.flatMap (· ++ ['|']) ++ rest ∧ (∀ u ∈ us, IsParam u) ∧
        vs = us.map unescape ∧ ¬ BeginsParam rest := by
  constructor
  · intro h
    fun_induction readSegments cs generalizing vs with
    | case1 cs hr =>
      cases h
      exact ⟨[], rfl, fun u hu => absurd hu List.not_mem_nil, rfl, readSegment_eq_none_iff.1 hr⟩
    | case2 cs v rest' hr ih =>
      cases h
      obtain ⟨u, rfl, hu, rfl, hm⟩ := readSegment_eq_some_iff.1 hr
      obtain ⟨us, hcs, hus, hvs, hmax⟩ := ih rfl
      refine ⟨u :: us, ?_, ?_, by rw [hvs]; rfl, hmax⟩
      · simp [← hcs]
      · intro w hw
        rcases List.mem_cons.1 hw with rfl | hw
        · exact ⟨hu, hm rfl⟩
        · exact hus w hw
  · rintro ⟨us, rfl, hus, rfl, hmax⟩
    induction us with
    | nil =>
      have hr := readSegment_eq_none_iff.2 hmax
      rw [readSegments]
      split
      · rfl
      · simp_all
    | cons u us ih =>
      have ih := ih fun w hw => hus w (by simp [hw])
      have hr : readSegment true (u ++ '|' :: (us.flatMap (· ++ ['|']) ++ rest)) =
          some (unescape u, us.flatMap (· ++ ['|']) ++ rest) :=
        readSegment_param (hus u (by simp))
      have hcs : (u :: us).flatMap (· ++ ['|']) ++ rest =
          u ++ '|' :: (us.flatMap (· ++ ['|']) ++ rest) := by simp
      rw [hcs, readSegments]
      split
      · simp_all
      · next v r h =>
        rw [hr] at h
        cases h
        simp [ih]

end Stencil
