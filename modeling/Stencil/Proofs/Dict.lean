import Mathlib.Data.List.Nodup
import Mathlib.Data.List.Perm.Basic
import Stencil.Dict

/-!
# Dictionaries as finite maps

What a dictionary holds is what it answers: an entry of a dictionary in order is found under its key
(`Ordered.find?_of_mem`), so that two of them with the same answers are the same (`Ordered.ext`).
Nothing is left of the order in which they were filled.
-/

namespace Stencil

namespace Dict

variable {α : Type} {d d' : Dict α} {es : List (String × α)} {k : String} {v : α}

/-! ## Entries and answers -/

theorem mem_entries_of_find? (h : d.find? k = some v) : (k, v) ∈ d.entries := by
  obtain ⟨e, he, rfl⟩ := Option.map_eq_some_iff.1 h
  have hkey : e.1 = k := by simpa using List.find?_some he
  exact hkey ▸ List.mem_of_find?_eq_some he

theorem find?_isSome : (d.find? k).isSome ↔ k ∈ d.keys := by
  rw [find?, Option.isSome_map, List.find?_isSome, keys, List.mem_map]
  simp only [beq_iff_eq]

/-- An entry is found under its key, since no other one has that key. -/
theorem Ordered.find?_of_mem (h : d.Ordered) (hmem : (k, v) ∈ d.entries) :
    d.find? k = some v := by
  obtain ⟨es⟩ := d
  have hkeys : (es.map (·.1)).Pairwise (· < ·) := h
  clear h
  show (es.find? fun e => e.1 == k).map (·.2) = some v
  induction es with
  | nil => cases hmem
  | cons e es ih =>
    rw [List.map_cons, List.pairwise_cons] at hkeys
    rcases List.mem_cons.1 hmem with rfl | hmem
    · rw [List.find?_cons_of_pos (by simp)]
      rfl
    · have hlt : e.1 < k := hkeys.1 k (List.mem_map_of_mem (f := Prod.fst) hmem)
      have hne : e.1 ≠ k := by
        rintro rfl
        exact String.lt_irrefl _ hlt
      rw [List.find?_cons_of_neg (by simpa using hne)]
      exact ih hmem hkeys.2

/-- Dictionaries in order are the same when they give the same answers. -/
theorem Ordered.ext (h : d.Ordered) (h' : d'.Ordered) (hfind : ∀ k, d.find? k = d'.find? k) :
    d = d' := by
  have hentries : d.entries.Pairwise fun a b => a.1 < b.1 := List.pairwise_map.1 h
  have hentries' : d'.entries.Pairwise fun a b => a.1 < b.1 := List.pairwise_map.1 h'
  have hnodup {es : List (String × α)} (hes : es.Pairwise fun a b => a.1 < b.1) : es.Nodup :=
    List.Pairwise.imp (fun {a b} hlt => ne_of_apply_ne Prod.fst (String.ne_of_lt hlt)) hes
  have hmem : ∀ e, e ∈ d.entries ↔ e ∈ d'.entries := fun e =>
    ⟨fun he => mem_entries_of_find? ((hfind e.1).symm.trans (h.find?_of_mem he)),
      fun he => mem_entries_of_find? ((hfind e.1).trans (h'.find?_of_mem he))⟩
  have hperm := (List.perm_ext_iff_of_nodup (hnodup hentries) (hnodup hentries')).2 hmem
  have heq : d.entries = d'.entries :=
    hperm.eq_of_pairwise
      (fun a b _ _ hab hba => absurd (String.lt_trans hab hba) (String.lt_irrefl _))
      hentries hentries'
  cases d
  cases d'
  exact congrArg Dict.mk heq

/-! ## Entries that are put in -/

theorem mem_insertEntry {e : String × α} (h : e ∈ insertEntry k v es) :
    e = (k, v) ∨ e ∈ es := by
  induction es with
  | nil => exact .inl (List.mem_singleton.1 h)
  | cons e' es ih =>
    unfold insertEntry at h
    split at h
    · exact (List.mem_cons.1 h).imp_right (List.mem_cons_of_mem _)
    · split at h
      · exact List.mem_cons.1 h
      · rcases List.mem_cons.1 h with rfl | h
        · exact .inr List.mem_cons_self
        · exact (ih h).imp_right (List.mem_cons_of_mem _)

/-- A dictionary has no other entries than the list that it was made of. -/
theorem mem_of_mem_ofList {e : String × α} (h : e ∈ (ofList es).entries) : e ∈ es := by
  suffices ∀ d : Dict α, e ∈ (es.foldl (fun d e => d.insert e.1 e.2) d).entries →
      e ∈ es ∨ e ∈ d.entries from (this empty h).resolve_right nofun
  clear h
  induction es with
  | nil => exact fun _ h => .inr h
  | cons e' es ih =>
    intro d h
    rcases ih _ h with h | h
    · exact .inl (List.mem_cons_of_mem _ h)
    · rcases mem_insertEntry h with rfl | h
      · exact .inl List.mem_cons_self
      · exact .inr h

/-- A key of a list in which it always has the same value has that value in its dictionary. -/
theorem find?_ofList (hmem : (k, v) ∈ es) (hsame : ∀ e ∈ es, e.1 = k → e.2 = v) :
    (ofList es).find? k = some v := by
  suffices ∀ d : Dict α, (k, v) ∈ es ∨ d.find? k = some v →
      (es.foldl (fun d e => d.insert e.1 e.2) d).find? k = some v from this empty (.inl hmem)
  clear hmem
  induction es with
  | nil =>
    rintro d (h | h)
    · cases h
    · exact h
  | cons e es ih =>
    intro d h
    refine ih (fun e' he' => hsame e' (List.mem_cons_of_mem e he')) _ ?_
    by_cases hkey : k = e.1
    · refine .inr ?_
      rw [find?_insert, if_pos hkey, hsame e List.mem_cons_self hkey.symm]
    · rcases h with h | h
      · rcases List.mem_cons.1 h with heq | h
        · exact absurd (congrArg Prod.fst heq) hkey
        · exact .inl h
      · rw [find?_insert, if_neg hkey]
        exact .inr h

end Dict

end Stencil
