import Stencil.Proofs.FirstUse
import Stencil.Proofs.Schema.Named

/-!
# Schemas as ordered maps

What a schema holds is said from the list of all tables that were ever inserted into it: under every
name the last one, in the order in which the names came first (`Holds`). An insertion keeps that
(`Holds.insert`), and it changes the answer for its own name only (`find?_insert`), so that it is so
after any number of them (`insertions_ordered`).
-/

namespace Stencil

open Text

namespace Schema

variable {s : Schema} {t u : Table} {name : String} {history : List Table}

/-- Of the tables inserted under a name, in whatever letters, `t` is the last one. -/
def IsLast (history : List Table) (name : String) (t : Table) : Prop :=
  ∃ before after, history = before ++ t :: after ∧ SameName t.name name ∧
    ∀ u ∈ after, ¬ SameName u.name name

/-- The names of tables as they are compared. -/
def namesOf (ts : List Table) : List String := ts.map fun t => upper t.name

/-- The schema holds the last table of every name that was inserted, at the place of the first. -/
structure Holds (s : Schema) (history : List Table) : Prop where
  distinct : Distinct s.tables
  found : ∀ name t, s.find? name = some t ↔ IsLast history name t
  names : namesOf s.tables = (namesOf history).eraseDups

/-! ## The last table of a name -/

theorem isLast_iff : IsLast history name t ↔
    history.reverse.find? (fun t => decide (SameName t.name name)) = some t := by
  rw [List.find?_eq_some_iff_append, decide_eq_true_iff]
  constructor
  · rintro ⟨before, after, rfl, hname, hafter⟩
    refine ⟨hname, after.reverse, before.reverse, by simp, fun u hu => ?_⟩
    simpa using hafter u (List.mem_reverse.1 hu)
  · rintro ⟨hname, front, behind, hsplit, hfront⟩
    refine ⟨behind.reverse, front.reverse, ?_, hname, fun u hu => ?_⟩
    · rw [← List.reverse_reverse history, hsplit]
      simp
    · simpa using hfront u (List.mem_reverse.1 hu)

/-- One more table is the last one of its name and of no other. -/
theorem isLast_concat : IsLast (history ++ [t]) name u ↔
    if SameName t.name name then t = u else IsLast history name u := by
  rw [isLast_iff, List.reverse_concat, List.find?_cons, isLast_iff]
  by_cases hname : SameName t.name name
  · simp [hname]
  · simp [hname]

/-! ## One insertion -/

/-- An insertion answers for its name, and changes the answer for no other. -/
theorem find?_insert (s : Schema) (t : Table) (name : String) :
    (s.insert t).find? name = if SameName t.name name then some t else s.find? name := by
  obtain ⟨tables⟩ := s
  simp only [find?, insert]
  induction tables with
  | nil =>
    rw [insertTable, List.find?_singleton]
    simp
  | cons v ts ih =>
    rw [insertTable]
    by_cases hsame : SameName v.name t.name
    · by_cases hname : SameName t.name name
      · simp [hsame, hname]
      · have hv : ¬ SameName v.name name := fun h => hname (hsame.symm.trans h)
        simp [hsame, hname, hv]
    · by_cases hv : SameName v.name name
      · have hname : ¬ SameName t.name name := fun h => hsame (hv.trans h.symm)
        simp [hsame, hname, hv]
      · simp [hsame, hv, ih]

/-- A name that is there keeps its place, and a new one comes last. -/
theorem namesOf_insertTable (t : Table) (ts : List Table) :
    namesOf (insertTable t ts) =
      if upper t.name ∈ namesOf ts then namesOf ts else namesOf ts ++ [upper t.name] := by
  induction ts with
  | nil => rfl
  | cons v ts ih =>
    have hcons (u : Table) (us : List Table) : namesOf (u :: us) = upper u.name :: namesOf us := rfl
    rw [insertTable]
    by_cases hsame : SameName v.name t.name
    · have hkey : upper t.name = upper v.name := hsame.symm
      rw [if_pos hsame, hcons, hcons, hkey, if_pos List.mem_cons_self]
    · have hkey : upper t.name ≠ upper v.name := fun h => hsame h.symm
      rw [if_neg hsame, hcons, hcons, ih]
      by_cases hin : upper t.name ∈ namesOf ts
      · rw [if_pos hin, if_pos (List.mem_cons_of_mem _ hin)]
      · rw [if_neg hin, if_neg (by simp [hin, hkey]), List.cons_append]

theorem holds_empty : Holds empty [] := by
  refine ⟨List.Pairwise.nil, fun name t => ?_, rfl⟩
  rw [isLast_iff]
  rfl

theorem Holds.insert (h : Holds s history) (t : Table) :
    Holds (s.insert t) (history ++ [t]) := by
  refine ⟨h.distinct.insertTable t, fun name u => ?_, ?_⟩
  · rw [find?_insert, isLast_concat]
    split
    · exact Option.some_inj
    · exact h.found name u
  · have hnames : namesOf (history ++ [t]) = namesOf history ++ [upper t.name] := by
      simp [namesOf]
    rw [Schema.insert, namesOf_insertTable, h.names, hnames, eraseDups_concat]

/-! ## Any number of insertions -/

theorem Holds.foldl_insert (h : Holds s history) (ts : List Table) :
    Holds (ts.foldl Schema.insert s) (history ++ ts) := by
  induction ts generalizing s history with
  | nil => rwa [List.append_nil]
  | cons t ts ih =>
    have hrest := ih (h.insert t)
    rwa [List.append_assoc, List.singleton_append] at hrest

/-- No table is found just if none of the name was inserted. -/
theorem Holds.find?_eq_none_iff (h : Holds s history) (name : String) :
    s.find? name = none ↔ ∀ t ∈ history, ¬ SameName t.name name := by
  have hlast : s.find? name = history.reverse.find? fun t => decide (SameName t.name name) :=
    Option.ext fun t => (h.found name t).trans isLast_iff
  rw [hlast, List.find?_eq_none]
  simp only [List.mem_reverse, decide_eq_true_iff]

theorem Holds.listing (h : Holds s history) {entry : String × Nat} (hentry : entry ∈ s.listing) :
    ∃ t, IsLast history entry.1 t ∧ entry = (t.name, t.index) := by
  obtain ⟨t, ht, rfl⟩ := List.mem_map.1 hentry
  exact ⟨t, (h.found _ t).1 (find?_eq_some h.distinct ht (SameName.refl t.name)), rfl⟩

/-- The answer of a schema, failures among it. -/
theorem answer_eq (s : Schema) (name : String) (keysOnly : Bool) :
    s.provider.answer name keysOnly =
      match s.find? name with
      | some t => .ok (t.lookedUp keysOnly)
      | none => .error (.unknownTable name) := by
  cases keysOnly with
  | false => rfl
  | true =>
    show (s.fields name).map _ = _
    rw [fields]
    cases s.find? name <;> rfl

/-- **A schema is an ordered map** of the tables of a document and of those inserted later, where
letters that differ in case are the same. -/
theorem insertions_ordered (document ts : List Table) :
    let s := ts.foldl insert (ofTables document)
    let history := document ++ ts
    Distinct s.tables ∧
      (∀ name t, s.find? name = some t ↔ IsLast history name t) ∧
      (∀ name keysOnly fs, s.provider.answer name keysOnly = .ok fs ↔
        ∃ t, IsLast history name t ∧ fs = t.lookedUp keysOnly) ∧
      (∀ name keysOnly err, s.provider.answer name keysOnly = .error err ↔
        (∀ t ∈ history, ¬ SameName t.name name) ∧ err = .unknownTable name) ∧
      (s.listing.map fun entry => upper entry.1) =
        (history.map fun t => upper t.name).eraseDups ∧
      (∀ entry ∈ s.listing, ∃ t, IsLast history entry.1 t ∧ entry = (t.name, t.index)) ∧
      ∀ t name, ¬ SameName t.name name → (s.insert t).find? name = s.find? name ∧
        ∀ keysOnly, (s.insert t).provider.answer name keysOnly =
          s.provider.answer name keysOnly := by
  intro s history
  have h : Holds s history := (holds_empty.foldl_insert document).foldl_insert ts
  refine ⟨h.distinct, h.found, fun name keysOnly fs => ?_, fun name keysOnly err => ?_, ?_,
    fun _ => h.listing, fun t name hname => ?_⟩
  · simp only [← h.found]
    rw [answer_eq]
    cases s.find? name with
    | none => simp
    | some t => simp [eq_comm]
  · rw [answer_eq, ← h.find?_eq_none_iff]
    cases s.find? name with
    | none => simp [eq_comm]
    | some t => simp
  · rw [listing, List.map_map]
    exact h.names
  · have hfind : (s.insert t).find? name = s.find? name := by rw [find?_insert, if_neg hname]
    refine ⟨hfind, fun keysOnly => ?_⟩
    rw [answer_eq, answer_eq, hfind]

/-- A table that comes again, in other letters, keeps the first place. -/
example : (ofTables [⟨"Rate", 1, []⟩, ⟨"TERR", 2, []⟩, ⟨"RATE", 7, []⟩]).listing =
    [("RATE", 7), ("TERR", 2)] := by
  decide

end Schema

end Stencil
