import Stencil.Proofs.Path

/-!
# Components of paths

What a path names below another one is its components without the root or the `.` in front
(`plain`): joining a relative path appends these (`components_join`). Paths are sorted component by
component, and this order is total (`compsBefore_total`), so that paths that name the same stand
together when they are sorted.
-/

namespace Stencil

/-! ## The order of paths -/

namespace Component

variable {a b c : Component}

theorem before_irrefl (a : Component) : a.before a = false := by
  cases a with
  | root | here | parent => rfl
  | name s => exact decide_eq_false (String.lt_irrefl s)

theorem before_trans (hab : a.before b = true) (hbc : b.before c = true) : a.before c = true := by
  cases a <;> cases b <;> cases c
  case name.name.name s t u =>
    have hst : s < t := of_decide_eq_true hab
    have htu : t < u := of_decide_eq_true hbc
    exact decide_eq_true (String.lt_trans hst htu)
  all_goals
    first
    | rfl
    | exact absurd hab Bool.false_ne_true
    | exact absurd hbc Bool.false_ne_true

theorem before_total (a b : Component) : a = b ∨ a.before b = true ∨ b.before a = true := by
  cases a <;> cases b
  case name.name s t =>
    by_cases hst : s < t
    · exact .inr (.inl (decide_eq_true hst))
    · by_cases hts : t < s
      · exact .inr (.inr (decide_eq_true hts))
      · exact .inl (congrArg name (String.le_antisymm hts hst))
  all_goals
    first
    | exact .inl rfl
    | exact .inr (.inl rfl)
    | exact .inr (.inr rfl)

end Component

namespace Path

variable {as bs cs : List Component}

theorem compsBefore_irrefl (as : List Component) : compsBefore as as = false := by
  induction as with
  | nil => rfl
  | cons a as ih => simp [compsBefore, a.before_irrefl, ih]

theorem compsBefore_trans (hab : compsBefore as bs = true) (hbc : compsBefore bs cs = true) :
    compsBefore as cs = true := by
  induction as generalizing bs cs with
  | nil =>
    cases bs with
    | nil => exact hbc
    | cons b bs =>
      cases cs with
      | nil => cases hbc
      | cons c cs => rfl
  | cons a as ih =>
    cases bs with
    | nil => cases hab
    | cons b bs =>
      cases cs with
      | nil => cases hbc
      | cons c cs =>
        simp only [compsBefore, Bool.or_eq_true, Bool.and_eq_true, beq_iff_eq] at hab hbc ⊢
        rcases hab with hab | ⟨rfl, hab⟩
        · rcases hbc with hbc | ⟨rfl, -⟩
          · exact .inl (Component.before_trans hab hbc)
          · exact .inl hab
        · exact hbc.imp_right fun ⟨hc, hbc⟩ => ⟨hc, ih hab hbc⟩

theorem compsBefore_total (as bs : List Component) :
    as = bs ∨ compsBefore as bs = true ∨ compsBefore bs as = true := by
  induction as generalizing bs with
  | nil =>
    cases bs with
    | nil => exact .inl rfl
    | cons b bs => exact .inr (.inl rfl)
  | cons a as ih =>
    cases bs with
    | nil => exact .inr (.inr rfl)
    | cons b bs =>
      simp only [compsBefore, Bool.or_eq_true, Bool.and_eq_true, beq_iff_eq]
      rcases Component.before_total a b with rfl | hab | hba
      · rcases ih bs with rfl | has | hbs
        · exact .inl rfl
        · exact .inr (.inl (.inr ⟨rfl, has⟩))
        · exact .inr (.inr (.inr ⟨rfl, hbs⟩))
      · exact .inr (.inl (.inl hab))
      · exact .inr (.inr (.inl hba))

theorem compsBefore_asymm (h : compsBefore as bs = true) : compsBefore bs as = false := by
  rw [Bool.eq_false_iff]
  intro h'
  have hself := compsBefore_trans h h'
  rw [compsBefore_irrefl] at hself
  cases hself

/-! ## Joined paths -/

variable {p q b : Path}

/-- The components of a path apart from the root or the `.` in front of it. -/
def plain (p : Path) : List Component := (p.segments.filter (!idle ·)).map ofSegment

theorem components_eq (p : Path) : p.components = p.front.toList ++ p.plain := rfl

/-- A relative path adds what it names to what it is joined to. -/
theorem components_join (hb : b.isEmpty = false) (hp : p.isAbsolute = false) :
    (b.join p).components = b.components ++ p.plain := by
  obtain ⟨⟨behind, htext⟩, ss, ends, hne, hsegments, hends, hjoined⟩ := segments_join hp hb
  have hnone : ends.filter (!idle ·) = [] :=
    List.filter_eq_nil_iff.2 fun s hs => by simp [hends s hs]
  have hplain : (b.join p).plain = b.plain ++ p.plain := by
    rw [plain, hjoined, plain, plain, hsegments, List.filter_append, List.filter_append, hnone,
      List.append_nil, List.map_append]
  have habsolute : (b.join p).isAbsolute = b.isAbsolute := by
    obtain ⟨c, cs, hcs⟩ := List.exists_cons_of_ne_nil (l := b.toList) (by
      rw [ne_eq, String.toList_eq_nil_iff]
      rintro rfl
      cases hb)
    rw [isAbsolute, isAbsolute, ← htext, hcs]
    rfl
  have hfront : (b.join p).front = b.front := by
    obtain ⟨s, ss, rfl⟩ := List.exists_cons_of_ne_nil hne
    rw [front, front, habsolute, hjoined, hsegments]
    rfl
  rw [components_eq, hfront, hplain, components_eq, List.append_assoc]

theorem join_of_isEmpty (hb : b.isEmpty = true) : b.join p = p := by
  rw [join]
  split
  · rfl
  · rw [hb, Bool.true_or, if_pos rfl, String.isEmpty_iff.1 hb, String.empty_append]

theorem front_cases (p : Path) : (p.front = some .root ∧ p.isAbsolute = true) ∨
    p.isAbsolute = false ∧ (p.front = none ∨ p.front = some .here) := by
  rw [front]
  cases p.isAbsolute with
  | true => exact .inl ⟨rfl, rfl⟩
  | false =>
    refine .inr ⟨rfl, ?_⟩
    rw [if_neg Bool.false_ne_true]
    split
    · exact .inr rfl
    · exact .inl rfl

theorem isAbsolute_of_front (h : p.front = none) : p.isAbsolute = false := by
  rcases p.front_cases with ⟨hroot, -⟩ | ⟨hrelative, -⟩
  · rw [h] at hroot
    cases hroot
  · exact hrelative

/-- What stands in front of a path is no component behind it. -/
theorem not_mem_plain {c : Component} (h : p.front = some c) : c ∉ q.plain := by
  intro hc
  obtain ⟨s, -, hs⟩ := List.mem_map.1 hc
  have hfront : c = .root ∨ c = .here := by
    rcases p.front_cases with ⟨hroot, -⟩ | ⟨-, hnone | hhere⟩
    · exact .inl (Option.some.inj (h.symm.trans hroot))
    · rw [h] at hnone
      cases hnone
    · exact .inr (Option.some.inj (h.symm.trans hhere))
  rw [ofSegment] at hs
  rcases hfront with rfl | rfl <;> split at hs <;> cases hs

/-- A path with nothing in front names nothing that one with something there names. -/
theorem front_eq_none (h : p.components = q.components) (hp : p.front = none) : q.front = none := by
  cases hq : q.front with
  | none => rfl
  | some c =>
    have hplain : p.plain = c :: q.plain := by
      rw [components_eq, components_eq, hp, hq] at h
      exact h
    exact absurd (hplain ▸ List.mem_cons_self) (not_mem_plain hq)

/-- Paths name the same when they have the same in front and the same behind it. -/
theorem components_eq_iff :
    p.components = q.components ↔ p.front = q.front ∧ p.plain = q.plain := by
  refine ⟨fun h => ?_, fun ⟨hfront, hplain⟩ => by
    rw [components_eq, hfront, hplain, components_eq]⟩
  have hall := h
  rw [components_eq, components_eq] at hall
  cases hp : p.front with
  | none =>
    have hq := front_eq_none h hp
    rw [hp, hq] at hall
    exact ⟨hq.symm, hall⟩
  | some c =>
    cases hq : q.front with
    | none =>
      rw [front_eq_none h.symm hq] at hp
      cases hp
    | some d =>
      rw [hp, hq] at hall
      obtain ⟨rfl, hplain⟩ := List.cons.inj hall
      exact ⟨rfl, hplain⟩

end Path

end Stencil
