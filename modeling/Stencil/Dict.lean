/-!
# Sorted dictionaries

A `Dict α` is a list of keys and values in strictly increasing order of the keys. `insert`
keeps the order and replaces the value of a key that is there, so the keys of a dictionary
built by insertions are listed once each and in order (`ofList_ordered`), and a look-up finds
the last value inserted under its key (`find?_insert`).
-/

namespace Stencil

/-- Keys with their values, in the order of the keys. -/
structure Dict (α : Type) where
  entries : List (String × α)
deriving DecidableEq, Repr

namespace Dict

variable {α : Type}

/-- The dictionary without a key. -/
def empty : Dict α := ⟨[]⟩

instance : Inhabited (Dict α) := ⟨empty⟩

/-- The entries with `v` under `k`. -/
def insertEntry (k : String) (v : α) : List (String × α) → List (String × α)
  | [] => [(k, v)]
  | e :: es =>
    if k = e.1 then (k, v) :: es
    else if k < e.1 then (k, v) :: e :: es
    else e :: insertEntry k v es

/-- The dictionary with `v` under `k`, in place of a value that is there. -/
def insert (d : Dict α) (k : String) (v : α) : Dict α :=
  ⟨insertEntry k v d.entries⟩

/-- The value under a key. -/
def find? (d : Dict α) (k : String) : Option α :=
  (d.entries.find? fun e => e.1 == k).map (·.2)

/-- The keys, in order. -/
def keys (d : Dict α) : List String := d.entries.map (·.1)

/-- The values, in the order of their keys. -/
def values (d : Dict α) : List α := d.entries.map (·.2)

/-- The number of keys. -/
def size (d : Dict α) : Nat := d.entries.length

/-- The dictionary of a list of entries, of which the last one under a key counts. -/
def ofList (es : List (String × α)) : Dict α :=
  es.foldl (fun d e => d.insert e.1 e.2) empty

/-- The keys are strictly increasing. -/
def Ordered (d : Dict α) : Prop := d.keys.Pairwise (· < ·)

/-! ## What an insertion does -/

private theorem lt_of_not_lt {a b : String} (hne : a ≠ b) (h : ¬a < b) : b < a := by
  rcases String.le_total a b with h' | h'
  · exact absurd (String.le_antisymm h' (fun h'' => h h'')) hne
  · exact Decidable.byContradiction fun h'' => hne (String.le_antisymm h'' h')

theorem mem_map_insertEntry {k x : String} {v : α} {es : List (String × α)} :
    x ∈ (insertEntry k v es).map (·.1) ↔ x = k ∨ x ∈ es.map (·.1) := by
  induction es with
  | nil => simp [insertEntry]
  | cons e es ih =>
    simp only [insertEntry]
    split
    · next h => subst h; simp
    · split
      · simp
      · simp [ih, or_left_comm]

@[simp]
theorem mem_keys_insert {d : Dict α} {k x : String} {v : α} :
    x ∈ (d.insert k v).keys ↔ x = k ∨ x ∈ d.keys :=
  mem_map_insertEntry

theorem insert_ordered {d : Dict α} {k : String} {v : α} (h : d.Ordered) :
    (d.insert k v).Ordered := by
  obtain ⟨es⟩ := d
  simp only [Ordered, keys, insert] at *
  induction es with
  | nil => simp [insertEntry]
  | cons e es ih =>
    simp only [List.map_cons, List.pairwise_cons] at h
    simp only [insertEntry]
    split
    · next hk => subst hk; simpa using h
    · next hk =>
      split
      · next hlt =>
        simp only [List.map_cons, List.pairwise_cons, List.mem_cons]
        exact ⟨fun x hx => hx.elim (· ▸ hlt) fun hx => String.lt_trans hlt (h.1 x hx), h⟩
      · next hlt =>
        simp only [List.map_cons, List.pairwise_cons]
        refine ⟨fun x hx => ?_, ih h.2⟩
        rcases mem_map_insertEntry.1 hx with rfl | hx
        · exact lt_of_not_lt hk hlt
        · exact h.1 x hx

theorem ofList_ordered (es : List (String × α)) : (ofList es).Ordered := by
  suffices ∀ d : Dict α, d.Ordered → (es.foldl (fun d e => d.insert e.1 e.2) d).Ordered from
    this empty List.Pairwise.nil
  induction es with
  | nil => exact fun _ h => h
  | cons e es ih => exact fun d h => ih _ (insert_ordered h)

@[simp]
theorem find?_insert {d : Dict α} {k q : String} {v : α} :
    (d.insert k v).find? q = if q = k then some v else d.find? q := by
  obtain ⟨es⟩ := d
  simp only [find?, insert]
  induction es with
  | nil =>
    by_cases h : k = q
    · simp [insertEntry, h]
    · simp [insertEntry, h, Ne.symm h]
  | cons e es ih =>
    by_cases h : q = k
    · subst h
      simp only [insertEntry, if_true] at ih ⊢
      split
      · simp
      · next hk =>
        split
        · simp
        · rw [List.find?_cons_of_neg (by simpa using Ne.symm hk)]
          exact ih
    · simp only [insertEntry, h, if_false] at ih ⊢
      split
      · next hk => subst hk; simp [Ne.symm h]
      · split
        · simp [List.find?_cons, Ne.symm h]
        · simp only [List.find?_cons]
          split
          · rfl
          · exact ih

end Dict

end Stencil
