import Stencil.Backend
import Stencil.Proofs.Emit.Emitter

/-!
# Triggers that see only their own template

What a template is given and what has become of it is in its context; where that context stands
among others, and what the run has counted so far, is not. `Action.Local` says of an action that it
keeps to the former. `Backend.registry_local` says that all triggers of both backends do, so that
what they give, and what they ask for, depends on nothing else.
-/

namespace Stencil

/-- The context without what tells its place in a run: among the live contexts, below its callers,
and in the output. -/
def Context.visible (c : Context) : Context :=
  { c with id := 0, parent := none, depth := 0, isMain := false, output := "" }

/-- A change shows in what is visible of a context, and depends on nothing else. -/
theorem Context.visible_apply (c : Context) (change : Change) :
    (c.apply change).visible = c.visible.apply change := by
  cases change <;> rfl

theorem Context.visible_applyAll (c : Context) (changes : List Change) :
    (c.applyAll changes).visible = c.visible.applyAll changes := by
  induction changes generalizing c with
  | nil => rfl
  | cons change changes ih => exact (ih (c.apply change)).trans (by rw [visible_apply]; rfl)

/-! ## Actions -/

namespace Action

variable {α β : Type}

/-- The action reads no more of a run than the visible part of its context, the schema's tables and
the fields of the bound table, and calls no main templates. -/
def Local : Action α → Prop
  | done _ => True
  | fail _ => True
  | context k => (∀ c, k c = k c.visible) ∧ ∀ c, (k c).Local
  | ancestry _ => False
  | live _ => False
  | limits _ => False
  | report _ => False
  | tables k => ∀ ts, (k ts).Local
  | fields _ k => ∀ fs, (k fs).Local
  | change _ k => k.Local
  | write _ k => k.Local
  | call _ isMain _ k => isMain = false ∧ k.Local

theorem Local.bind {a : Action α} {f : α → Action β} (ha : a.Local) (hf : ∀ v, (f v).Local) :
    (a.bind f).Local := by
  induction a with
  | done v => exact hf v
  | fail m => trivial
  | context k ih => exact ⟨fun c => congrArg (Action.bind · f) (ha.1 c), fun c => ih c (ha.2 c)⟩
  | ancestry | live | limits | report => exact ha.elim
  | tables k ih | fields b k ih => exact fun x => ih x (ha x)
  | change c k ih | write l k ih => exact ih ha
  | call t m s k ih => exact ⟨ha.1, ih ha.2⟩

theorem Local.forEach {xs : List α} {f : α → Action Unit} (hf : ∀ x, (f x).Local) :
    (forEach xs f).Local := by
  induction xs with
  | nil => trivial
  | cons x xs ih => exact (hf x).bind fun _ => ih

/-- An action that makes a value of the context. -/
theorem local_ofContext {value : Context → α} (h : ∀ c, value c = value c.visible) :
    Local (context fun c => done (value c)) :=
  ⟨fun c => congrArg done (h c), fun _ => trivial⟩

end Action

/-! ## Triggers and registries -/

/-- A trigger whose actions are local, whatever its parameters. -/
def Trigger.Local (t : Trigger) : Prop := ∀ ps, (t.resolve ps).Local

/-- An emitter that reads the visible part of its context. -/
structure Emitter.Local (m : Emitter) : Prop where
  placeholder : ∀ c ps, m.placeholder c ps = m.placeholder c.visible ps
  text : ∀ c ps fs, m.text c ps fs = m.text c.visible ps fs

theorem Emitter.Local.trigger {m : Emitter} (h : m.Local) : m.trigger.Local := by
  intro ps
  rw [m.resolve_eq]
  have hvalue (c : Context) (fs : Option (List Field)) :
      m.value c ps fs = m.value c.visible ps fs := by
    cases fs with
    | none => exact h.placeholder c ps
    | some fs => exact h.text c ps fs
  refine ⟨fun c => ?_, fun c fs => trivial⟩
  simp only [← hvalue c]

/-- A registry of local triggers. -/
def Registry.Local (g : Registry) : Prop := ∀ name t, g.find? name = some t → t.Local

/-- A trigger that is found in a registry is one of those registered last, or was there before. -/
theorem Registry.mem_of_find?_registerAll {g : Registry} {ts : List Trigger} {name : String}
    {t : Trigger} (h : (g.registerAll ts).find? name = some t) :
    t ∈ ts ∨ g.find? name = some t := by
  induction ts generalizing g with
  | nil => exact .inr h
  | cons u ts ih =>
    rcases ih (h : ((g.register u).registerAll ts).find? name = some t) with hts | hfind
    · exact .inl (List.mem_cons_of_mem u hts)
    · rw [find?, register, Dict.find?_insert] at hfind
      split at hfind
      · cases hfind
        exact .inl List.mem_cons_self
      · exact .inr hfind

/-- Triggers with other keys leave what is found. -/
theorem Registry.find?_registerAll_of_not_mem {g : Registry} {ts : List Trigger} {name : String}
    (h : Text.triggerKey name ∉ ts.map fun t => Text.triggerKey t.name) :
    (g.registerAll ts).find? name = g.find? name := by
  induction ts generalizing g with
  | nil => rfl
  | cons u ts ih =>
    rw [List.map_cons, List.mem_cons, not_or] at h
    have hu : (g.register u).find? name = g.find? name := by
      rw [find?, register, Dict.find?_insert, if_neg h.1]
      rfl
    exact (ih h.2).trans hu

/-- Among triggers with different keys, each is found by its name once all are registered. -/
theorem Registry.find?_registerAll (g : Registry) {ts : List Trigger}
    (hkeys : (ts.map fun t => Text.triggerKey t.name).Nodup) {t : Trigger} (ht : t ∈ ts) :
    (g.registerAll ts).find? t.name = some t := by
  induction ts generalizing g with
  | nil => cases ht
  | cons u ts ih =>
    obtain ⟨hu, hkeys⟩ := List.nodup_cons.1 hkeys
    rcases List.mem_cons.1 ht with rfl | ht
    · refine (find?_registerAll_of_not_mem hu).trans ?_
      rw [find?, register, Dict.find?_insert, if_pos rfl]
    · exact ih (g.register u) hkeys ht

/-- The emitters of a backend are found by their names. -/
theorem Cobol.find?_emitter {m : Emitter} (hm : m ∈ sqlEmitters ++ storageEmitters) :
    Backend.cobol.registry.find? m.name = some m.trigger := by
  have hkeys : (triggers.map fun t => Text.triggerKey t.name).Nodup := by decide +kernel
  have hmem : m.trigger ∈ triggers := List.mem_append_right _ (List.mem_map_of_mem hm)
  have hfound := ((Registry.empty "cobol").registerAll Shared.triggers).find?_registerAll hkeys hmem
  exact hfound

theorem Java.find?_emitter {m : Emitter} (hm : m ∈ emitters) :
    Backend.java.registry.find? m.name = some m.trigger := by
  have hkeys : (triggers.map fun t => Text.triggerKey t.name).Nodup := by decide +kernel
  have hmem : m.trigger ∈ triggers := List.mem_append_right _ (List.mem_map_of_mem hm)
  have hfound := ((Registry.empty "java").registerAll Shared.triggers).find?_registerAll hkeys hmem
  exact hfound

/-- The triggers of a backend are the shared ones and its own. -/
theorem Backend.mem_of_find? {b : Backend} {name : String} {t : Trigger}
    (h : b.registry.find? name = some t) :
    t ∈ Shared.triggers ∨ t ∈ Cobol.triggers ∨ t ∈ Java.triggers := by
  cases b with
  | cobol =>
    rcases Registry.mem_of_find?_registerAll h with hown | h
    · exact .inr (.inl hown)
    · rcases Registry.mem_of_find?_registerAll h with hshared | h
      · exact .inl hshared
      · cases h
  | java =>
    rcases Registry.mem_of_find?_registerAll h with hown | h
    · exact .inr (.inr hown)
    · rcases Registry.mem_of_find?_registerAll h with hshared | h
      · exact .inl hshared
      · cases h

/-! ## The backends -/

namespace Shared

theorem ofContext_local {name summary : String} {text : Context → String}
    (h : ∀ c, text c = text c.visible) : (ofContext name summary text).Local :=
  fun _ => Action.local_ofContext fun c => congrArg some (h c)

theorem bindTable_local : bindTable.Local := by
  intro ps
  simp only [bindTable]
  cases param ps 0 with
  | none => trivial
  | some name => exact fun _ => trivial

theorem setSlot_local : setSlot.Local := by
  intro ps
  simp only [setSlot]
  cases param ps 0 <;> trivial

theorem ofText_local {name summary : String} {f : String → String} :
    (ofText name summary f).Local := fun _ => trivial

theorem conditional_local {name summary : String} {keepsMatch : Bool} :
    (conditional name summary keepsMatch).Local :=
  fun _ => Action.local_ofContext fun _ => rfl

theorem subTemplate_local : subTemplate.Local := by
  intro ps
  simp only [subTemplate]
  cases param ps 0 with
  | none => trivial
  | some template => exact ⟨rfl, trivial⟩

theorem eachTable_local : eachTable.Local := by
  intro ps
  simp only [eachTable]
  cases param ps 0 with
  | none => trivial
  | some template =>
    intro listing
    have hcalls : (Action.forEach (tablesFrom listing (param ps 1)) fun t =>
        Action.callTemplate template false [.bind { table := t.1, index := t.2 }]).Local :=
      .forEach fun t => ⟨rfl, trivial⟩
    exact hcalls.bind fun _ => trivial

theorem triggers_local : ∀ t ∈ triggers, t.Local := by
  simp only [triggers, List.forall_mem_cons]
  have hget : getSlot.Local := fun _ => Action.local_ofContext fun _ => rfl
  have hdate : date.Local := fun _ => Action.local_ofContext fun _ => rfl
  exact ⟨conditional_local, conditional_local, subTemplate_local, eachTable_local,
    ofContext_local fun _ => rfl, ofContext_local fun _ => rfl, ofContext_local fun _ => rfl,
    ofContext_local fun _ => rfl, fun _ => trivial, bindTable_local, ofContext_local fun _ => rfl,
    ofContext_local fun _ => rfl, setSlot_local, hget, ofText_local, ofText_local, hdate,
    ofContext_local fun _ => rfl, nofun⟩

end Shared

/-- Where all emitters are local, their triggers are. -/
theorem Emitter.triggers_local {ms : List Emitter} (h : ∀ m ∈ ms, m.Local) :
    ∀ t ∈ ms.map Emitter.trigger, t.Local := by
  intro t ht
  obtain ⟨m, hm, rfl⟩ := List.mem_map.1 ht
  exact (h m hm).trigger

theorem Cobol.emitters_local : ∀ m ∈ sqlEmitters ++ storageEmitters, m.Local := by
  simp only [sqlEmitters, storageEmitters, List.cons_append, List.nil_append,
    List.forall_mem_cons]
  refine ⟨?_, ?_, ?_, ?_, ?_, ?_, ?_, ?_, ?_, ?_, ?_, ?_, ?_, ?_, ?_, ?_, ?_, ?_, ?_, nofun⟩ <;>
    exact ⟨fun _ _ => rfl, fun _ _ _ => rfl⟩

theorem Cobol.triggers_local : ∀ t ∈ triggers, t.Local := by
  have hcomment : comment.Local := fun _ => trivial
  have hheader : header.Local := fun _ => Action.local_ofContext fun _ => rfl
  simp only [triggers, List.cons_append, List.nil_append, List.forall_mem_cons]
  exact ⟨hcomment, hheader, Emitter.triggers_local emitters_local⟩

theorem Java.emitters_local : ∀ m ∈ emitters, m.Local := by
  simp only [emitters, List.forall_mem_cons]
  refine ⟨?_, ?_, ?_, ?_, ?_, ?_, nofun⟩ <;> exact ⟨fun _ _ => rfl, fun _ _ _ => rfl⟩

theorem Java.triggers_local : ∀ t ∈ triggers, t.Local := by
  have hcomment : comment.Local := fun _ => Action.local_ofContext fun _ => rfl
  have hclass : className.Local := fun _ => Action.local_ofContext fun _ => rfl
  simp only [triggers, List.cons_append, List.nil_append, List.forall_mem_cons]
  exact ⟨hcomment, hclass, Emitter.triggers_local emitters_local⟩

/-- Every trigger of a backend sees only its own template. -/
theorem Backend.registry_local (b : Backend) : b.registry.Local := by
  intro name t h
  rcases mem_of_find? h with hshared | hcobol | hjava
  · exact Shared.triggers_local t hshared
  · exact Cobol.triggers_local t hcobol
  · exact Java.triggers_local t hjava

end Stencil
