import Stencil.Proofs.Lines
import Stencil.Run.File

/-!
# Directories of paths

The text of a path is that of its segments, and its segments are read off it again. A path that ends
in a name lies in the directory that the segments before the name make, where idle segments are left
out at the end (`EndsIn.directory_cases`), so that the directory is tidy and leads where these
segments do (`ofLeading_leads`). A name that is joined to a directory is the last of its
segments (`segments_join`).
-/

namespace Stencil

namespace Path

variable {p : Path} {s : List Char} {front ends ss : List (List Char)}

/-- What is put together in two halves is joined by one more separator, -/
theorem intercalate_append {c : Char} {ss ts : List (List Char)} (hss : ss ≠ []) (hts : ts ≠ []) :
    [c].intercalate (ss ++ ts) = [c].intercalate ss ++ c :: [c].intercalate ts := by
  induction ss with
  | nil => exact absurd rfl hss
  | cons s ss ih =>
    cases ss with
    | nil =>
      obtain ⟨t, ts, rfl⟩ := List.exists_cons_of_ne_nil hts
      simp [List.intercalate_cons_cons]
    | cons s' ss =>
      have hrest := ih (List.cons_ne_nil s' ss)
      rw [List.cons_append] at hrest
      rw [List.cons_append, List.cons_append, List.intercalate_cons_cons, hrest,
        List.intercalate_cons_cons, List.append_assoc, List.append_assoc, List.append_assoc]

/-- and begins with what the first half gives. -/
theorem intercalate_leading (c : Char) (ss ts : List (List Char)) :
    [c].intercalate ss <+: [c].intercalate (ss ++ ts) := by
  by_cases hss : ss = []
  · rw [hss]
    exact List.nil_prefix
  · by_cases hts : ts = []
    · exact ⟨[], by simp [hts]⟩
    · rw [intercalate_append hss hts]
      exact List.prefix_append _ _

/-- The text of a path is that of its segments put together. -/
theorem toList_eq_intercalate (p : Path) : p.toList = ['/'].intercalate p.segments :=
  (List.intercalate_splitOn '/').symm

theorem not_mem_of_mem_segments (h : s ∈ p.segments) : '/' ∉ s := not_mem_of_mem_splitOn h

/-- Segments put together are read off again. -/
theorem segments_ofSegments (hne : ss ≠ []) (hss : ∀ s ∈ ss, '/' ∉ s) :
    (ofSegments ss).segments = ss := by
  rw [segments, ofSegments, String.toList_ofList, List.splitOn_intercalate '/' hss hne]

/-- A path is absolute when something follows an empty first segment. -/
theorem isAbsolute_iff : p.isAbsolute = true ↔ ∃ t ts, p.segments = [] :: t :: ts := by
  unfold isAbsolute segments
  cases p.toList with
  | nil => simp [List.splitOn_nil]
  | cons c cs =>
    obtain ⟨t, ts, hsplit⟩ := List.exists_cons_of_ne_nil (List.splitOn_ne_nil '/' cs)
    rw [List.splitOn_cons_eq_if_modifyHead]
    by_cases hc : c = '/'
    · simp [hc, hsplit]
    · simp [hc, hsplit]

/-- The idle segments at the end are dropped, -/
theorem exists_dropIdleEnd (ss : List (List Char)) :
    ∃ ends, ss = dropIdleEnd ss ++ ends ∧ ∀ s ∈ ends, idle s = true := by
  refine ⟨(ss.reverse.takeWhile idle).reverse, ?_, fun s hs => ?_⟩
  · rw [dropIdleEnd, ← List.reverse_append, List.takeWhile_append_dropWhile, List.reverse_reverse]
  · exact List.all_eq_true.1 List.all_takeWhile s (List.mem_reverse.1 hs)

/-- and what is left does not end in one. -/
theorem dropIdleEnd_cases (ss : List (List Char)) :
    dropIdleEnd ss = [] ∨ ∃ front s, dropIdleEnd ss = front ++ [s] ∧ idle s = false := by
  have hhead := List.head?_dropWhile_not idle ss.reverse
  rw [dropIdleEnd]
  cases hdropped : ss.reverse.dropWhile idle with
  | nil => exact .inl rfl
  | cons s rest =>
    rw [hdropped] at hhead
    exact .inr ⟨rest.reverse, s, List.reverse_cons, by simpa using hhead⟩

theorem dropIdleEnd_ne_empty (ss : List (List Char)) : dropIdleEnd ss ≠ [[]] := by
  intro h
  rcases dropIdleEnd_cases ss with hnone | ⟨front, s, hlast, hs⟩
  · rw [hnone] at h
    cases h
  · obtain rfl : s = [] := by
      have := congrArg List.getLast? (hlast.symm.trans h)
      simpa using this
    cases hs

theorem dropIdleEnd_append (front : List (List Char)) (hs : idle s = false)
    (hends : ∀ t ∈ ends, idle t = true) : dropIdleEnd (front ++ s :: ends) = front ++ [s] := by
  rw [dropIdleEnd, List.reverse_append, List.reverse_cons, List.append_assoc,
    List.dropWhile_append_of_pos (fun t ht => hends t (List.mem_reverse.1 ht)),
    List.singleton_append, List.dropWhile_cons_of_neg (by simp [hs]), ← List.reverse_concat,
    List.reverse_reverse]

/-- A path ends in the name `s`, apart from separators, after the segments `front`. -/
structure EndsIn (p : Path) (front : List (List Char)) (s : List Char) (ends : List (List Char)) :
    Prop where
  segments : p.segments = front ++ s :: ends
  name : idle s = false ∧ s ≠ ['.', '.']
  idle : ∀ t ∈ ends, Path.idle t = true

/-- What is not idle lies in what is made of the segments before it. -/
theorem parent_of_segments (hsegments : p.segments = front ++ s :: ends) (hs : idle s = false)
    (hends : ∀ t ∈ ends, idle t = true) : p.parent = some (ofLeading front) := by
  have hfilter : p.segments.filter (!Path.idle ·) = front.filter (!Path.idle ·) ++ [s] := by
    have hnone : ends.filter (!Path.idle ·) = [] :=
      List.filter_eq_nil_iff.2 fun t ht => by simp [hends t ht]
    rw [hsegments, List.filter_append, List.filter_cons_of_pos (by simp [hs]), hnone]
  have hlast : p.components.getLast? = some (ofSegment s) := by
    rw [components, hfilter, List.map_append, ← List.append_assoc, List.map_singleton,
      List.getLast?_concat]
  have hleading : some (ofLeading (dropIdleEnd p.segments).dropLast) = some (ofLeading front) := by
    rw [hsegments, dropIdleEnd_append front hs hends, List.dropLast_concat]
  rw [Path.parent, hlast, ofSegment]
  split
  · next h => split at h <;> cases h
  · next h => split at h <;> cases h
  · next h => split at h <;> cases h
  · exact hleading

/-- So does a name. -/
theorem EndsIn.parent (h : p.EndsIn front s ends) : p.parent = some (ofLeading front) :=
  parent_of_segments h.segments h.name.1 h.idle

/-- A path is tidy when it does not end in an idle segment, unless all of them are idle. -/
def Tidy (p : Path) : Prop :=
  (∀ s ∈ p.segments, idle s = true) ∨ ∃ front s, p.segments = front ++ [s] ∧ idle s = false

/-- A tidy path that is made of the segments `front`, less idle ones at the end. -/
structure Trims (q : Path) (front : List (List Char)) : Prop where
  segments : ∃ rest, front = q.segments ++ rest ∧ ∀ t ∈ rest, idle t = true
  text : q.isEmpty = false
  tidy : q.Tidy

theorem trims_ofSegments (hfront : ∀ t ∈ ss ++ ends, '/' ∉ t) (hends : ∀ t ∈ ends, idle t = true)
    (hne : ss ≠ []) (hne' : ss ≠ [[]])
    (htidy : (∀ t ∈ ss, idle t = true) ∨ ∃ front s, ss = front ++ [s] ∧ idle s = false) :
    (ofSegments ss).Trims (ss ++ ends) := by
  have hsegments := segments_ofSegments hne fun t ht => hfront t (List.mem_append_left _ ht)
  refine ⟨⟨ends, by rw [hsegments], hends⟩, ?_, by rwa [Tidy, hsegments]⟩
  rw [Bool.eq_false_iff]
  intro hempty
  rw [String.isEmpty_iff.1 hempty] at hsegments
  exact hne' hsegments.symm

/-- Segments that are not all idle are trimmed by dropping the idle ones at the end. -/
theorem trims_dropIdleEnd (hfront : ∀ t ∈ front, '/' ∉ t) {leading : List (List Char)}
    (hlast : dropIdleEnd front = leading ++ [s]) (hs : idle s = false) :
    (ofSegments (dropIdleEnd front)).Trims front := by
  obtain ⟨rest, hsplit, hrest⟩ := exists_dropIdleEnd front
  have htrims := trims_ofSegments (fun t ht => hfront t (hsplit ▸ ht)) hrest (by simp [hlast])
    (dropIdleEnd_ne_empty front) (.inr ⟨leading, s, hlast, hs⟩)
  rwa [← hsplit] at htrims

/-- Leading segments make an absolute path where the first one is empty, -/
theorem ofLeading_absolute {t : List Char} {ts : List (List Char)}
    (hfront : ∀ f ∈ [] :: t :: ts, '/' ∉ f) :
    ofLeading ([] :: t :: ts) =
      if (dropIdleEnd ([] :: t :: ts)).isEmpty then "/"
      else ofSegments (dropIdleEnd ([] :: t :: ts)) := by
  have hsegments := segments_ofSegments (List.cons_ne_nil _ _) hfront
  have habsolute : (ofSegments ([] :: t :: ts)).isAbsolute = true :=
    isAbsolute_iff.2 ⟨t, ts, hsegments⟩
  rw [ofLeading, if_neg (by simp), tidyEnd, Path.front, if_pos habsolute, hsegments]

/-- and else a relative one, of which a leading `.` is kept. -/
theorem ofLeading_relative {f : List Char} {fs : List (List Char)} (hf : f ≠ [])
    (hfront : ∀ t ∈ f :: fs, '/' ∉ t) :
    ofLeading (f :: fs) =
      ofSegments (if f = ['.'] then f :: dropIdleEnd fs else dropIdleEnd (f :: fs)) := by
  have hsegments := segments_ofSegments (List.cons_ne_nil f fs) hfront
  have hrelative : (ofSegments (f :: fs)).isAbsolute = false := by
    rw [Bool.eq_false_iff]
    intro habsolute
    obtain ⟨t, ts, habsolute⟩ := isAbsolute_iff.1 habsolute
    rw [hsegments] at habsolute
    exact hf (List.cons.inj habsolute).1
  have htidy : ofLeading (f :: fs) = (ofSegments (f :: fs)).tidyEnd := if_neg (by simp [hf])
  rw [tidyEnd, Path.front, hrelative, hsegments, List.head?_cons,
    if_neg Bool.false_ne_true] at htidy
  rw [htidy]
  by_cases hhere : f = ['.']
  · rw [if_pos hhere, if_pos (by simp [hhere])]
  · rw [if_neg hhere, if_neg (by simp [hhere])]

/-- Leading segments make nothing, or the root, or a tidy path that leaves out idle ones at the
end. -/
theorem ofLeading_cases (hfront : ∀ t ∈ front, '/' ∉ t) :
    (ofLeading front = "" ∧ front = []) ∨
      (ofLeading front = "/" ∧ front.head? = some [] ∧ ∀ t ∈ front, idle t = true) ∨
      (ofLeading front).Trims front := by
  cases front with
  | nil => exact .inl ⟨rfl, rfl⟩
  | cons f fs =>
    by_cases hf : f = []
    · subst hf
      cases fs with
      | nil => exact .inr (.inl ⟨rfl, rfl, by simp [idle]⟩)
      | cons t ts =>
        rw [ofLeading_absolute hfront]
        rcases dropIdleEnd_cases ([] :: t :: ts) with hnone | ⟨leading, s, hlast, hs⟩
        · obtain ⟨rest, hsplit, hrest⟩ := exists_dropIdleEnd ([] :: t :: ts)
          rw [hnone, List.nil_append] at hsplit
          rw [hnone]
          exact .inr (.inl ⟨rfl, rfl, hsplit ▸ hrest⟩)
        · rw [if_neg (by simp [hlast])]
          exact .inr (.inr (trims_dropIdleEnd hfront hlast hs))
    · rw [ofLeading_relative hf hfront]
      refine .inr (.inr ?_)
      by_cases hhere : f = ['.']
      · rw [if_pos hhere]
        obtain ⟨rest, hsplit, hrest⟩ := exists_dropIdleEnd fs
        have hsplit' : f :: fs = (f :: dropIdleEnd fs) ++ rest := by
          rw [List.cons_append, ← hsplit]
        rw [hsplit'] at hfront ⊢
        refine trims_ofSegments hfront hrest (List.cons_ne_nil _ _) (by simp [hf]) ?_
        rcases dropIdleEnd_cases fs with hnone | ⟨leading, s, hlast, hs⟩
        · rw [hnone]
          exact .inl (by simp [hhere, idle])
        · exact .inr ⟨f :: leading, s, by rw [hlast, List.cons_append], hs⟩
      · rw [if_neg hhere]
        rcases dropIdleEnd_cases (f :: fs) with hnone | ⟨leading, s, hlast, hs⟩
        · -- its first segment is not idle
          obtain ⟨rest, hsplit, hrest⟩ := exists_dropIdleEnd (f :: fs)
          rw [hnone, List.nil_append] at hsplit
          have hidle := hrest f (hsplit ▸ List.mem_cons_self)
          simp [idle, hf, hhere] at hidle
        · exact trims_dropIdleEnd hfront hlast hs

/-- A path that leads to where the segments `front` of another one do: it is the beginning of that
path, and leaves out idle segments at most. -/
structure Leads (q p : Path) (front : List (List Char)) : Prop where
  leading : q.toList <+: p.toList
  text : q.isEmpty = false
  segments : ∃ rest, front = q.segments ++ rest ∧ ∀ t ∈ rest, idle t = true

/-- The first segments of a path make nothing, or the root, or a tidy path that leads to where they
do. -/
theorem ofLeading_leads (hsegments : p.segments = front ++ ss) :
    (ofLeading front = "" ∧ front = []) ∨
      (ofLeading front = "/" ∧ front.head? = some [] ∧ ∀ t ∈ front, idle t = true) ∨
      (ofLeading front).Leads p front ∧ (ofLeading front).Tidy := by
  refine (ofLeading_cases fun t ht =>
    not_mem_of_mem_segments (hsegments ▸ List.mem_append_left _ ht)).imp_right (.imp_right ?_)
  intro htrims
  obtain ⟨rest, hsplit, -⟩ := htrims.segments
  refine ⟨⟨?_, htrims.text, htrims.segments⟩, htrims.tidy⟩
  have hwhole : front ++ ss = (ofLeading front).segments ++ (rest ++ ss) := by
    rw [← List.append_assoc, ← hsplit]
  rw [p.toList_eq_intercalate, toList_eq_intercalate, hsegments, hwhole]
  exact intercalate_leading _ _ _

/-- Above a segment that is not idle the path has fewer of these. -/
theorem Leads.length_filter_lt {q : Path} (h : q.Leads p front)
    (hsegments : p.segments = front ++ [s]) (hs : idle s = false) :
    (q.segments.filter (!idle ·)).length < (p.segments.filter (!idle ·)).length := by
  obtain ⟨rest, hsplit, -⟩ := h.segments
  rw [hsegments, List.filter_append, List.length_append, List.filter_cons_of_pos (by simp [hs]),
    hsplit, List.filter_append, List.length_append, List.length_cons]
  omega

/-- Where not all of them are idle, the first segments of a path make one that leads where they
do. -/
theorem ofLeading_leads_of_not_idle (hsegments : p.segments = front ++ ss)
    (hidle : ¬ ∀ t ∈ front, idle t = true) :
    (ofLeading front).Leads p front ∧ (ofLeading front).Tidy := by
  rcases ofLeading_leads hsegments with ⟨-, rfl⟩ | ⟨-, -, hidle'⟩ | h
  · exact absurd (List.forall_mem_nil _) hidle
  · exact absurd hidle' hidle
  · exact h

/-- The directory of a file: the root or `.` where the segments before its name are idle, else a
tidy path that leads to where they do. -/
theorem EndsIn.directory_cases (h : p.EndsIn front s ends) :
    (p.directory = (if p.isAbsolute then "/" else ".") ∧ ∀ t ∈ front, Path.idle t = true) ∨
      p.directory.Leads p front ∧ p.directory.Tidy := by
  rw [directory, h.parent]
  dsimp only
  rcases ofLeading_leads h.segments with ⟨hempty, rfl⟩ | ⟨hroot, hhead, hidle⟩ | ⟨hleads, htidy⟩
  · have hrelative : p.isAbsolute = false := by
      rw [Bool.eq_false_iff]
      intro habsolute
      obtain ⟨t, ts, habsolute⟩ := isAbsolute_iff.1 habsolute
      rw [h.segments] at habsolute
      have hs := h.name.1
      rw [(List.cons.inj habsolute).1] at hs
      cases hs
    rw [hempty, hrelative]
    exact .inl ⟨rfl, fun t ht => nomatch ht⟩
  · obtain ⟨fs, rfl⟩ : ∃ fs, front = [] :: fs := List.head?_eq_some_iff.1 hhead
    have habsolute : p.isAbsolute = true := by
      obtain ⟨t, ts, hts⟩ := List.exists_cons_of_ne_nil
        (List.append_ne_nil_of_right_ne_nil fs (List.cons_ne_nil s ends))
      exact isAbsolute_iff.2 ⟨t, ts, by rw [h.segments, List.cons_append, hts]⟩
    rw [hroot, habsolute]
    exact .inl ⟨rfl, hidle⟩
  · rw [if_neg (by simp [hleads.text])]
    exact .inr ⟨hleads, htidy⟩

/-- The directory of a file is tidy. -/
theorem EndsIn.tidy_directory (h : p.EndsIn front s ends) : p.directory.Tidy := by
  rcases h.directory_cases with ⟨heq, -⟩ | ⟨-, htidy⟩
  · rw [heq]
    split
    · exact .inl (by decide +kernel)
    · exact .inl (by decide +kernel)
  · exact htidy

/-- A path has at least as many characters as segments that are not idle. -/
theorem length_filter_segments (p : Path) :
    (p.segments.filter (!idle ·)).length ≤ p.length := by
  rw [← String.length_toList, p.toList_eq_intercalate]
  generalize p.segments = ss
  induction ss with
  | nil => exact Nat.le_refl _
  | cons s ss ih =>
    have hfirst : ((s :: ss).filter (!idle ·)).length ≤
        s.length + (ss.filter (!idle ·)).length := by
      cases s with
      | nil => simp [idle]
      | cons c cs =>
        rw [List.filter_cons]
        split
        · rw [List.length_cons, List.length_cons]
          omega
        · exact Nat.le_add_left _ _
    cases ss with
    | nil => simpa using hfirst
    | cons t ts =>
      rw [List.intercalate_cons_cons, List.length_append, List.length_append]
      omega

/-- The segments of a relative path come after those of the path that it is joined to, but for an
empty last one of these. -/
theorem segments_join {p q : Path} (hq : q.isAbsolute = false) (hp : p.isEmpty = false) :
    p.toList <+: (p.join q).toList ∧ ∃ ss ends, ss ≠ [] ∧ p.segments = ss ++ ends ∧
      (∀ s ∈ ends, idle s = true) ∧ (p.join q).segments = ss ++ q.segments := by
  rw [join, hq, hp, if_neg Bool.false_ne_true]
  by_cases hlast : p.toList.getLast? = some '/'
  · obtain ⟨front, hfront⟩ := List.getLast?_eq_some_iff.1 hlast
    rw [if_pos (by simp [hlast]), segments, segments, String.toList_append, hfront,
      List.append_assoc, List.singleton_append, List.splitOn_append_cons_self,
      List.splitOn_append_cons_self]
    exact ⟨⟨q.toList, by simp⟩, _, _, List.splitOn_ne_nil _ _, rfl, by simp [idle], rfl⟩
  · have htext : (p ++ "/" ++ q : String).toList = p.toList ++ '/' :: q.toList := by simp
    rw [if_neg (by simp [hlast]), segments, segments, htext, List.splitOn_append_cons_self]
    exact ⟨List.prefix_append _ _, _, [], List.splitOn_ne_nil _ _, (List.append_nil _).symm,
      List.forall_mem_nil _, rfl⟩

end Path

end Stencil
