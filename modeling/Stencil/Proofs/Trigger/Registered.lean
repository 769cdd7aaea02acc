import Stencil.Proofs.Dict
import Stencil.Proofs.Text.Upper
import Stencil.Trigger.Registry

/-!
# Registries as finite maps

What a registry holds is said from the history of the triggers that were registered: under every key
the last one of them (`Holds`). A registration keeps that (`Holds.register`), and so does any number
of them (`Holds.registerAll`). The history counts for nothing else, so that registries are the same
when the triggers of each key came in one order (`registrations_map`).
-/

namespace Stencil

open Text

namespace Registry

variable {r r' : Registry} {history history' ts : List Trigger} {t u : Trigger} {key name : String}

/-- The triggers of a history that have a key, in the order in which they came. -/
def under (history : List Trigger) (key : String) : List Trigger :=
  history.filter fun t => triggerKey t.name == key

/-- The registry holds the last trigger of every key that was registered. -/
structure Holds (r : Registry) (history : List Trigger) : Prop where
  ordered : r.triggers.Ordered
  found : ∀ key, r.triggers.find? key = (under history key).getLast?

/-! ## Triggers of one key -/

theorem mem_under : t ∈ under history key ↔ t ∈ history ∧ triggerKey t.name = key := by
  rw [under, List.mem_filter, beq_iff_eq]

theorem under_concat : under (history ++ [t]) key =
    if key = triggerKey t.name then under history key ++ [t] else under history key := by
  rw [under, List.filter_append]
  by_cases hkey : key = triggerKey t.name
  · rw [if_pos hkey, List.filter_cons_of_pos (by simp [hkey]), List.filter_nil]
    rfl
  · rw [if_neg hkey, List.filter_cons_of_neg (by simp [Ne.symm hkey]), List.filter_nil,
      List.append_nil]
    rfl

theorem isSome_last_under :
    (under history key).getLast?.isSome ↔ ∃ t ∈ history, triggerKey t.name = key := by
  rw [List.getLast?_isSome]
  constructor
  · intro hne
    obtain ⟨t, ht⟩ := List.exists_mem_of_ne_nil _ hne
    exact ⟨t, mem_under.1 ht⟩
  · rintro ⟨t, ht⟩
    exact List.ne_nil_of_mem (mem_under.2 ht)

/-- Whichever of two triggers with different keys comes first is not to be seen. -/
theorem under_swap (hne : triggerKey t.name ≠ triggerKey u.name) (ts : List Trigger)
    (key : String) : under (t :: u :: ts) key = under (u :: t :: ts) key := by
  simp only [under, List.filter_cons]
  by_cases ht : triggerKey t.name = key
  · have hu : triggerKey u.name ≠ key := fun hu => hne (ht.trans hu.symm)
    simp [ht, hu]
  · simp [ht]

/-! ## One registration -/

theorem holds_empty (label : String) : (empty label).Holds [] := ⟨List.Pairwise.nil, fun _ => rfl⟩

theorem Holds.register (h : r.Holds history) (t : Trigger) :
    (r.register t).Holds (history ++ [t]) := by
  refine ⟨Dict.insert_ordered h.ordered, fun key => ?_⟩
  rw [under_concat, Registry.register, Dict.find?_insert]
  by_cases hkey : key = triggerKey t.name
  · rw [if_pos hkey, if_pos hkey, List.getLast?_concat]
  · rw [if_neg hkey, if_neg hkey]
    exact h.found key

/-! ## Any number of registrations -/

theorem Holds.registerAll (h : r.Holds history) (ts : List Trigger) :
    (r.registerAll ts).Holds (history ++ ts) := by
  induction ts generalizing r history with
  | nil => rwa [List.append_nil]
  | cons t ts ih =>
    have hrest := ih (h.register t)
    rwa [List.append_assoc, List.singleton_append] at hrest

/-- A name is found just if a trigger of its key was registered. -/
theorem Holds.find?_isSome_iff (h : r.Holds history) (name : String) :
    (r.find? name).isSome ↔ ∃ t ∈ history, triggerKey t.name = triggerKey name := by
  rw [find?, h.found, isSome_last_under]

theorem Holds.mem_names (h : r.Holds history) (key : String) :
    key ∈ r.names ↔ ∃ t ∈ history, triggerKey t.name = key := by
  rw [names, ← Dict.find?_isSome, h.found, isSome_last_under]

/-- A trigger stands beside its key. -/
theorem Holds.key_eq (h : r.Holds history) {e : String × Trigger} (he : e ∈ r.triggers.entries) :
    triggerKey e.2.name = e.1 := by
  have hlast := h.found e.1
  rw [h.ordered.find?_of_mem he] at hlast
  exact (mem_under.1 (List.mem_of_getLast? hlast.symm)).2

theorem Holds.keys_all (h : r.Holds history) :
    (r.all.map fun t => triggerKey t.name) = r.names := by
  rw [all, Dict.values, List.map_map, names, Dict.keys]
  exact List.map_congr_left fun e he => h.key_eq he

/-- A key is looked up as itself, and so the triggers come in the order of the names. -/
theorem Holds.find?_names (h : r.Holds history) : r.names.map r.find? = r.all.map some := by
  rw [all, Dict.values, List.map_map, names, Dict.keys, List.map_map]
  refine List.map_congr_left fun e he => ?_
  have hkey : triggerKey e.1 = e.1 := by
    rw [← h.key_eq he, triggerKey_triggerKey]
  show r.triggers.find? (triggerKey e.1) = some e.2
  rw [hkey, h.ordered.find?_of_mem he]

/-- Of the history, what came under each key tells all. -/
theorem Holds.unique (h : r.Holds history) (h' : r'.Holds history') (hlabel : r.label = r'.label)
    (hunder : ∀ key, under history key = under history' key) : r = r' := by
  have htriggers : r.triggers = r'.triggers := h.ordered.ext h'.ordered fun key => by
    rw [h.found, h'.found, hunder]
  cases r
  cases r'
  cases hlabel
  exact congrArg (Registry.mk _) htriggers

theorem label_registerAll (r : Registry) (ts : List Trigger) :
    (r.registerAll ts).label = r.label := by
  induction ts generalizing r with
  | nil => rfl
  | cons t ts ih => exact ih (r.register t)

/-- **A registry is a finite map** from keys to triggers, whatever triggers were registered: a name
is looked up to the last trigger with its key, and this is the trigger whose place a further one
takes. The names are the keys in order, each of them once, and the triggers stand in their order. Of
the order of the registrations no more is left than, for every key, that of the triggers with this
key. -/
theorem registrations_map (label : String) (ts : List Trigger) :
    let r := (empty label).registerAll ts
    (∀ name, (r.find? name).isSome ↔ ∃ t ∈ ts, triggerKey t.name = triggerKey name) ∧
      (∀ name, r.contains name ↔ ∃ t ∈ ts, triggerKey t.name = triggerKey name) ∧
      (∀ name, r.find? name = (under ts (triggerKey name)).getLast?) ∧
      (∀ t, r.exchange t =
        ((under ts (triggerKey t.name)).getLast?, (empty label).registerAll (ts ++ [t]))) ∧
      r.names.Pairwise (· < ·) ∧
      (∀ key, key ∈ r.names ↔ ∃ t ∈ ts, triggerKey t.name = key) ∧
      (r.all.map fun t => triggerKey t.name) = r.names ∧
      r.names.map r.find? = r.all.map some ∧
      r.size = r.names.length ∧
      ∀ ts', (∀ key, under ts' key = under ts key) → (empty label).registerAll ts' = r := by
  intro r
  have h : r.Holds ts := (holds_empty label).registerAll ts
  refine ⟨h.find?_isSome_iff, h.find?_isSome_iff, fun name => h.found _, fun t => ?_, h.ordered,
    h.mem_names, h.keys_all, h.find?_names, ?_, fun ts' hunder => ?_⟩
  · rw [exchange, find?, h.found, registerAll, List.foldl_concat]
    rfl
  · rw [size, names, Dict.size, Dict.keys, List.length_map]
  · have h' : ((empty label).registerAll ts').Holds ts' := (holds_empty label).registerAll ts'
    exact h'.unique h ((label_registerAll _ ts').trans (label_registerAll _ ts).symm) hunder

/-- A trigger that gives its own name. -/
def naming (name : String) : Trigger where
  name := name
  resolve _ := .done (some name)

/-- Two keys, one of them registered twice: its triggers are the ones whose order counts. -/
theorem registrations_swapped :
    let early := (empty "").registerAll [naming "zed", naming " Alpha", naming "ALPHA "]
    let late := (empty "").registerAll [naming " Alpha", naming "zed", naming "ALPHA "]
    (∀ key, under [naming " Alpha", naming "zed", naming "ALPHA "] key =
      under [naming "zed", naming " Alpha", naming "ALPHA "] key) ∧
      late = early ∧ early.names = ["ALPHA", "ZED"] ∧
      (early.find? "alpha").map (·.name) = some "ALPHA " := by
  intro early late
  have hunder : ∀ key, under [naming " Alpha", naming "zed", naming "ALPHA "] key =
      under [naming "zed", naming " Alpha", naming "ALPHA "] key :=
    under_swap (by decide) _
  obtain ⟨-, -, -, -, -, -, -, -, -, hsame⟩ :=
    registrations_map "" [naming "zed", naming " Alpha", naming "ALPHA "]
  exact ⟨hunder, hsame _ hunder, by decide +kernel, by decide +kernel⟩

end Registry

end Stencil
