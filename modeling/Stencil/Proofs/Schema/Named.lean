import Stencil.Context.Basic
import Stencil.Proofs.Schema.Memo

/-!
# Tables by name

A schema that is built by insertions has one table of a name at most, whatever letters the name is
spelled in (`Schema.ofTables_distinct`). The table that is found under a name is then the only one
that has it, and a binding that takes its index from the list of tables has the index of that table
(`Binding.ofListing_coherent`), as does one that takes both from an entry of the list
(`Binding.entry_coherent`).
-/

namespace Stencil

open Text

namespace Schema

variable {s : Schema} {t u : Table} {name : String}

/-- No two tables have names that differ in case only. -/
def Distinct (ts : List Table) : Prop := ts.Pairwise fun t u => ¬ SameName t.name u.name

theorem mem_insertTable {ts : List Table} (h : u ∈ insertTable t ts) : u = t ∨ u ∈ ts := by
  induction ts with
  | nil => exact .inl (List.mem_singleton.1 h)
  | cons v ts ih =>
    rw [insertTable] at h
    split at h
    · rcases List.mem_cons.1 h with rfl | h
      · exact .inl rfl
      · exact .inr (List.mem_cons_of_mem v h)
    · rcases List.mem_cons.1 h with rfl | h
      · exact .inr List.mem_cons_self
      · exact (ih h).imp id (List.mem_cons_of_mem v)

/-- An insertion keeps names distinct: the table takes the place of the one that has its name. -/
theorem Distinct.insertTable {ts : List Table} (h : Distinct ts) (t : Table) :
    Distinct (insertTable t ts) := by
  induction ts with
  | nil => exact List.pairwise_singleton _ t
  | cons v ts ih =>
    obtain ⟨hv, hts⟩ := List.pairwise_cons.1 h
    rw [Schema.insertTable]
    split
    · next hsame =>
      exact List.pairwise_cons.2 ⟨fun u hu hname => hv u hu (hsame.trans hname), hts⟩
    · next hother =>
      refine List.pairwise_cons.2 ⟨fun u hu hname => ?_, ih hts⟩
      rcases mem_insertTable hu with rfl | hu
      · exact hother hname
      · exact hv u hu hname

theorem ofTables_distinct (ts : List Table) : Distinct (ofTables ts).tables := by
  suffices ∀ s : Schema, Distinct s.tables → Distinct (ts.foldl insert s).tables from
    this empty List.Pairwise.nil
  induction ts with
  | nil => exact fun s hs => hs
  | cons t ts ih => exact fun s hs => ih (s.insert t) (hs.insertTable t)

/-- What is found under a name is the table that has it. -/
theorem find?_eq_some (hs : Distinct s.tables) (ht : t ∈ s.tables) (hname : SameName t.name name) :
    s.find? name = some t := by
  obtain ⟨tables⟩ := s
  show tables.find? _ = some t
  induction tables with
  | nil => cases ht
  | cons v ts ih =>
    obtain ⟨hv, hts⟩ := List.pairwise_cons.1 hs
    rcases List.mem_cons.1 ht with rfl | ht
    · exact List.find?_cons_of_pos (decide_eq_true hname)
    · have hother : ¬ SameName v.name name := fun hsame => hv t ht (hsame.trans hname.symm)
      rw [List.find?_cons_of_neg (by rwa [decide_eq_true_iff])]
      exact ih hts ht

/-- The list of tables has the entry of the table that is found. -/
theorem find?_listing (s : Schema) (name : String) :
    (s.listing.find? fun t => decide (SameName t.1 name)) =
      (s.find? name).map fun t => (t.name, t.index) := by
  rw [listing, List.find?_map]
  rfl

/-- Nothing is found under a name that no table has. -/
theorem find?_eq_none (hnone : ∀ t ∈ s.tables, ¬ SameName t.name name) : s.find? name = none := by
  rw [find?, List.find?_eq_none]
  intro t ht
  rw [decide_eq_true_iff]
  exact hnone t ht

end Schema

/-- The fields of a table that a look-up asks for. -/
def Table.lookedUp (t : Table) (keysOnly : Bool) : List Field :=
  if keysOnly then t.fields.filter (·.isKey) else t.fields

/-- A schema answers with the fields of the table that it finds. -/
theorem Schema.answer_provider (s : Schema) (name : String) (keysOnly : Bool) :
    (s.provider.answer name keysOnly).toOption =
      (s.find? name).map (·.lookedUp keysOnly) := by
  rw [Provider.answer]
  cases keysOnly with
  | false => exact s.toOption_fields name
  | true =>
    show ((s.fields name).map _).toOption = _
    rw [fields]
    cases s.find? name <;> rfl

/-! ## Bindings -/

/-- The binding has the index of the schema's table of its name, and 0 where there is none. -/
def Binding.Coherent (s : Schema) (b : Binding) : Prop :=
  b.index = (s.find? b.table).elim 0 (·.index)

namespace Binding

/-- A binding by name takes the index of the table that is found under the name. -/
theorem ofListing_coherent (s : Schema) (name : String) :
    (ofListing s.listing name).Coherent s := by
  simp only [Coherent, ofListing, s.find?_listing]
  cases s.find? name <;> rfl

/-- So does a binding to an entry of the list of tables. -/
theorem entry_coherent {s : Schema} (hs : Schema.Distinct s.tables) {entry : String × Nat}
    (hentry : entry ∈ s.listing) :
    Coherent s { table := entry.1, index := entry.2 } := by
  obtain ⟨t, ht, rfl⟩ := List.mem_map.1 hentry
  show t.index = (s.find? t.name).elim 0 (·.index)
  rw [Schema.find?_eq_some hs ht (SameName.refl t.name)]
  rfl

end Binding

end Stencil
