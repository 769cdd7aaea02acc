import Stencil.Proofs.Token.Grammar

/-!
# Slices of a text

A text is cut at offsets into its bytes. A slice is the part between two offsets, in order, each of
which lies between two characters of the text; between any others there is none
(`slice?_isSome_iff`). So a computation that looks at a text through slices only, and never fails,
never looks beyond the text or into a character.
-/

namespace Stencil

open Text (byteSize)

/-- A text cut at a byte offset. There is nothing to cut within a character or beyond the end. -/
def cut? : List Char → Nat → Option (List Char × List Char)
  | cs, 0 => some ([], cs)
  | [], _ + 1 => none
  | c :: cs, n + 1 =>
    if c.utf8Size ≤ n + 1 then (cut? cs (n + 1 - c.utf8Size)).map fun r => (c :: r.1, r.2)
    else none

/-- A range of byte offsets. -/
structure Span where
  start : Nat
  stop : Nat
deriving DecidableEq, Repr

/-- The part of a text in a span. There is none unless the span starts and stops between characters
of the text, and stops where it starts or later. -/
def slice? (cs : List Char) (sp : Span) : Option (List Char) :=
  if sp.start ≤ sp.stop then
    (cut? cs sp.start).bind fun r => (cut? r.2 (sp.stop - sp.start)).map (·.1)
  else none

theorem byteSize_eq_zero_iff {cs : List Char} : byteSize cs = 0 ↔ cs = [] := by
  constructor
  · intro h
    cases cs with
    | nil => rfl
    | cons c cs => exact absurd h (Nat.ne_of_gt (byteSize_pos (List.cons_ne_nil c cs)))
  · rintro rfl
    rfl

/-- A text is cut where its first part has the size of the offset. -/
theorem cut?_eq_some_iff {cs pre post : List Char} {n : Nat} :
    cut? cs n = some (pre, post) ↔ cs = pre ++ post ∧ byteSize pre = n := by
  fun_induction cut? cs n generalizing pre with
  | case1 cs =>
    rw [byteSize_eq_zero_iff]
    constructor
    · rintro ⟨⟩
      exact ⟨rfl, rfl⟩
    · rintro ⟨rfl, rfl⟩
      rfl
  | case2 n =>
    constructor
    · rintro ⟨⟩
    · rintro ⟨hcs, hsize⟩
      obtain ⟨rfl, -⟩ := List.append_eq_nil_iff.1 hcs.symm
      cases hsize
  | case3 c cs n hle ih =>
    rw [Option.map_eq_some_iff]
    constructor
    · rintro ⟨⟨pre', post'⟩, hcut, heq⟩
      cases heq
      obtain ⟨rfl, hsize : byteSize pre' = _⟩ := ih.1 hcut
      refine ⟨rfl, ?_⟩
      show c.utf8Size + byteSize pre' = n + 1
      omega
    · rintro ⟨hcs, hsize⟩
      cases pre with
      | nil => cases hsize
      | cons d pre =>
        obtain ⟨rfl, rfl⟩ := List.cons.inj hcs
        rw [Text.byteSize_cons] at hsize
        exact ⟨(pre, post), ih.2 ⟨rfl, by omega⟩, rfl⟩
  | case4 c cs n hlt =>
    constructor
    · rintro ⟨⟩
    · rintro ⟨hcs, hsize⟩
      cases pre with
      | nil => cases hsize
      | cons d pre =>
        obtain ⟨rfl, -⟩ := List.cons.inj hcs
        rw [Text.byteSize_cons] at hsize
        omega

/-- A slice is what stands between the two offsets of its span. -/
theorem slice?_eq_some_iff {cs part : List Char} {sp : Span} :
    slice? cs sp = some part ↔ ∃ pre post, cs = pre ++ (part ++ post) ∧
      byteSize pre = sp.start ∧ byteSize pre + byteSize part = sp.stop := by
  unfold slice?
  constructor
  · intro h
    split at h
    · next hle =>
      obtain ⟨⟨pre, rest⟩, hcut, h⟩ := Option.bind_eq_some_iff.1 h
      obtain ⟨⟨part', post⟩, hcut', rfl⟩ := Option.map_eq_some_iff.1 h
      obtain ⟨rfl, hpre⟩ := cut?_eq_some_iff.1 hcut
      obtain ⟨rfl, hpart : byteSize part' = _⟩ := cut?_eq_some_iff.1 hcut'
      refine ⟨pre, post, rfl, hpre, ?_⟩
      show byteSize pre + byteSize part' = sp.stop
      omega
    · cases h
  · rintro ⟨pre, post, rfl, hpre, hpart⟩
    rw [if_pos (by omega), cut?_eq_some_iff.2 ⟨rfl, hpre⟩, Option.bind_some,
      cut?_eq_some_iff.2 ⟨rfl, by omega⟩]
    rfl

/-- The slice of a text between two of its parts. -/
theorem slice?_append (pre part post : List Char) :
    slice? (pre ++ (part ++ post)) ⟨byteSize pre, byteSize pre + byteSize part⟩ = some part :=
  slice?_eq_some_iff.2 ⟨pre, post, rfl, rfl, rfl⟩

/-- Between a cursor behind `done` and a place behind `before` lies the gap. -/
theorem slice?_gap {cs done gap before rest : List Char} (hcs : cs = before ++ rest)
    (hbefore : before = done ++ gap) :
    slice? cs ⟨byteSize done, byteSize before⟩ = some gap := by
  rw [hcs, hbefore, List.append_assoc, Text.byteSize_append]
  exact slice?_append done gap rest

/-- The slice of a text from an offset to the end. -/
theorem slice?_end_eq_some_iff {cs rest : List Char} {start : Nat} :
    slice? cs ⟨start, byteSize cs⟩ = some rest ↔ ∃ pre, cs = pre ++ rest ∧ byteSize pre = start := by
  rw [slice?_eq_some_iff]
  constructor
  · rintro ⟨pre, post, rfl, hstart, hstop⟩
    have hpost : post = [] := by
      rw [← byteSize_eq_zero_iff]
      simp only [Text.byteSize_append] at hstop
      omega
    exact ⟨pre, by rw [hpost, List.append_nil], hstart⟩
  · rintro ⟨pre, rfl, hstart⟩
    exact ⟨pre, [], by rw [List.append_nil], hstart, by rw [Text.byteSize_append]⟩

/-- The slice of a text behind one of its parts. -/
theorem slice?_append_end (pre rest : List Char) :
    slice? (pre ++ rest) ⟨byteSize pre, byteSize (pre ++ rest)⟩ = some rest :=
  slice?_end_eq_some_iff.2 ⟨pre, rfl, rfl⟩

theorem utf8ByteSize_ofList (cs : List Char) : (String.ofList cs).utf8ByteSize = byteSize cs := by
  induction cs with
  | nil => rfl
  | cons c cs ih =>
    rw [show c :: cs = [c] ++ cs from rfl, String.ofList_append, String.utf8ByteSize_append, ih,
      Text.byteSize_append]
    congr 1
    simp

/-- The offsets between two characters of a text are those of its first parts. -/
theorem isValid_iff {s : String} {p : Nat} : String.Pos.Raw.IsValid s ⟨p⟩ ↔
    ∃ pre post, s.toList = pre ++ post ∧ byteSize pre = p := by
  rw [String.Pos.Raw.isValid_iff_exists_append]
  constructor
  · rintro ⟨s₁, s₂, rfl, hp⟩
    refine ⟨s₁.toList, s₂.toList, String.toList_append, ?_⟩
    rw [← utf8ByteSize_ofList, String.ofList_toList]
    exact (congrArg String.Pos.Raw.byteIdx hp).symm
  · rintro ⟨pre, post, hs, rfl⟩
    refine ⟨String.ofList pre, String.ofList post, ?_, ?_⟩
    · rw [← String.ofList_append, ← hs, String.ofList_toList]
    · rw [String.rawEndPos, utf8ByteSize_ofList]

/-- Slices are taken between character boundaries, and only there. -/
theorem slice?_isSome_iff {s : String} {sp : Span} : (slice? s.toList sp).isSome = true ↔
    sp.start ≤ sp.stop ∧ String.Pos.Raw.IsValid s ⟨sp.start⟩ ∧
      String.Pos.Raw.IsValid s ⟨sp.stop⟩ := by
  rw [Option.isSome_iff_exists, isValid_iff, isValid_iff]
  constructor
  · rintro ⟨part, hpart⟩
    obtain ⟨pre, post, hs, hstart, hstop⟩ := slice?_eq_some_iff.1 hpart
    exact ⟨by omega, ⟨pre, part ++ post, hs, hstart⟩, pre ++ part, post,
      by rw [hs, List.append_assoc], by rw [Text.byteSize_append, hstop]⟩
  · rintro ⟨hle, ⟨pre, post, hs, hstart⟩, pre', post', hs', hstop⟩
    obtain ⟨part, rfl, rfl⟩ := prefix_of_byteSize_le (hs'.symm.trans hs) (by omega)
    refine ⟨part, slice?_eq_some_iff.2 ⟨pre, post', hs, hstart, ?_⟩⟩
    rw [← Text.byteSize_append, hstop]

end Stencil
