import Mathlib.Data.List.Chain
import Stencil.Proofs.Context.Arena

/-!
# The lineage of contexts

An arena arises from a new one by spawning children of any live context, by releases at any place
and by changes to live contexts (`Arises`). Releases may cut it anywhere, and the places that they
free are taken again; still no context outlives its parent, since the parent lies below it. What
each of the operations keeps is said of `Lawful`, from which it follows that the callers of a live
context lead up to the root (`Lawful.leadsToRoot`).
-/

namespace Stencil

/-- The contexts `c` and `c'` agree in what no change from outside reaches: their place among the
contexts, and what they were made for. Business values, table, slots, line, token and times may
differ. -/
structure Context.SameOrigin (c c' : Context) : Prop where
  id : c'.id = c.id
  parent : c'.parent = c.parent
  depth : c'.depth = c.depth
  template : c'.template = c.template
  isMain : c'.isMain = c.isMain
  output : c'.output = c.output

/-- A trigger's change is one from outside. -/
theorem Context.SameOrigin.apply (c : Context) (change : Change) :
    SameOrigin c (c.apply change) := by
  cases change <;> exact ⟨rfl, rfl, rfl, rfl, rfl, rfl⟩

namespace Arena

/-- The arenas that arise from a new one, by any operations in any order. -/
inductive Arises : Arena → Prop where
  | new (template output : String) (business : Business) (isMain : Bool) (startedAt : Moment) :
      Arises (ofRoot template output business isMain startedAt)
  /-- A child of a live context, whether or not it is the newest one. -/
  | spawn {a : Arena} (before : Arises a) {parent : Nat} (live : parent < a.size)
      (template : String) (isMain : Bool) : Arises (a.spawn parent template isMain)
  /-- A release at any place, the root's and places that are not live among them. -/
  | release {a : Arena} (before : Arises a) (id : Nat) : Arises (a.release id)
  /-- A change to a live context. -/
  | modify {a : Arena} (before : Arises a) {id : Nat} (live : id < a.size)
      {f : Context → Context} (origin : (a.get id).SameOrigin (f (a.get id))) :
      Arises (a.modify id f)

/-- The context `c` may stand at the place `i`: it bears the place's number, and its parent is live,
stands below it and is one level higher; the root has no parent and no depth. -/
structure Stands (a : Arena) (i : Nat) (c : Context) : Prop where
  id : c.id = i
  root : i = 0 → c.parent = none ∧ c.depth = 0
  parent : 0 < i → ∃ p d, c.parent = some p ∧ p < i ∧ a.get? p = some d ∧ c.depth = d.depth + 1

/-- Every context stands where it may. -/
def Lawful (a : Arena) : Prop := ∀ i c, a.get? i = some c → a.Stands i c

/-- The list `l` leads from the context `c` up to the root: each member's parent comes next, and is
older, and all are live. -/
structure LeadsToRoot (a : Arena) (c : Context) (l : List Context) : Prop where
  first : l.head? = some c
  last : l.getLast? = some a.root
  length : l.length = c.depth + 1
  parents : l.IsChain fun c d => c.parent = some d.id
  older : (l.map (·.id)).Pairwise (· > ·)
  live : ∀ d ∈ l, a.get? d.id = some d

/-- The arena `b` is `a` with a child of `parent` on top. The child takes over the parent's business
values, table and slots, and a main one only the root's business values. -/
structure Spawned (a : Arena) (parent : Nat) (template : String) (isMain : Bool) (b : Arena) :
    Prop where
  size : b.size = a.size + 1
  others : ∀ i < a.size, b.get? i = a.get? i
  child : ∃ c, b.get? a.size = some c ∧ c.parent = some parent ∧ c.template = template ∧
    c.isMain = isMain ∧
    if isMain then c.business = a.root.business ∧ c.table = none ∧ c.slots = .empty
    else c.business = (a.get parent).business ∧ c.table = (a.get parent).table ∧
      c.slots = (a.get parent).slots

variable {a b : Arena} {c : Context} {f : Context → Context} {i id parent : Nat}

/-! ## What the operations keep -/

/-- A context that stands in one arena stands in any other in which the contexts below it are. -/
theorem Stands.mono (h : a.Stands i c)
    (hbelow : ∀ p < i, ∀ d, a.get? p = some d → ∃ d', b.get? p = some d' ∧ d'.depth = d.depth) :
    b.Stands i c := by
  refine ⟨h.id, h.root, fun hi => ?_⟩
  obtain ⟨p, d, hparent, hp, hd, hdepth⟩ := h.parent hi
  obtain ⟨d', hd', hsame⟩ := hbelow p hp d hd
  exact ⟨p, d', hparent, hp, hd', hsame ▸ hdepth⟩

theorem ofRoot_lawful (template output : String) (business : Business) (isMain : Bool)
    (startedAt : Moment) : (ofRoot template output business isMain startedAt).Lawful := by
  intro i c hc
  obtain rfl : i = 0 := Nat.lt_one_iff.1 (lt_size_of_get? hc)
  cases hc
  exact ⟨rfl, fun _ => ⟨rfl, rfl⟩, fun hi => absurd hi (Nat.lt_irrefl 0)⟩

/-- A child lies above its parent, which is live. -/
theorem Lawful.spawn (h : a.Lawful) (hlive : parent < a.size) (template : String) (isMain : Bool) :
    (a.spawn parent template isMain).Lawful := by
  have hbelow {i : Nat} (hi : i ≤ a.size) : ∀ p < i, ∀ d, a.get? p = some d →
      ∃ d', (a.spawn parent template isMain).get? p = some d' ∧ d'.depth = d.depth := by
    intro p hp d hd
    exact ⟨d, (get?_push_of_lt (Nat.lt_of_lt_of_le hp hi)).trans hd, rfl⟩
  intro i c hc
  by_cases hi : i < a.size
  · rw [Arena.spawn, get?_push_of_lt hi] at hc
    exact (h i c hc).mono (hbelow (Nat.le_of_lt hi))
  · have hsize : i < a.size + 1 := size_push a _ ▸ lt_size_of_get? hc
    obtain rfl : i = a.size := by omega
    rw [Arena.spawn, get?_push_size] at hc
    cases hc
    have hchild : a.Stands a.size (a.childOf parent template isMain) := by
      refine ⟨rfl, fun hzero => ?_, fun _ => ⟨parent, a.get parent, rfl, hlive, ?_, rfl⟩⟩
      · exact absurd hzero (Nat.ne_of_gt a.size_pos)
      · exact get?_eq_get hlive
    exact hchild.mono (hbelow (Nat.le_refl _))

/-- What is left after a release has its parents, as they lie below it. -/
theorem Lawful.release (h : a.Lawful) (id : Nat) : (a.release id).Lawful := by
  by_cases hid : 0 < id
  · intro i c hc
    rw [get?_release a hid] at hc
    split at hc
    · next hi =>
      refine (h i c hc).mono fun p hp d hd => ⟨d, ?_, rfl⟩
      rw [get?_release a hid, if_pos (Nat.lt_trans hp hi), hd]
    · cases hc
  · obtain rfl : id = 0 := Nat.eq_zero_of_not_pos hid
    exact h

/-- A change moves no context to another place or depth. -/
theorem Lawful.modify (h : a.Lawful) (horigin : (a.get id).SameOrigin (f (a.get id))) :
    (a.modify id f).Lawful := by
  have hchanged {p : Nat} {d : Context} (hd : a.get? p = some d) :
      ∃ d', (a.modify id f).get? p = some d' ∧ d.SameOrigin d' := by
    rw [get?_modify, hd]
    split
    · next hp =>
      have hget : a.get id = d := by rw [get, hp, hd, Option.getD_some]
      exact ⟨f d, rfl, hget ▸ horigin⟩
    · exact ⟨d, rfl, ⟨rfl, rfl, rfl, rfl, rfl, rfl⟩⟩
  intro i c hc
  obtain ⟨c₀, hc₀⟩ : ∃ c₀, a.get? i = some c₀ := by
    refine ⟨a.get i, get?_eq_get ?_⟩
    have hlive := lt_size_of_get? hc
    rwa [size_modify] at hlive
  obtain ⟨c', hc', hsame⟩ := hchanged hc₀
  obtain rfl : c = c' := Option.some.inj (hc.symm.trans hc')
  have hstands := h i c₀ hc₀
  refine ⟨hsame.id.trans hstands.id, fun hi => ?_, fun hi => ?_⟩
  · rw [hsame.parent, hsame.depth]
    exact hstands.root hi
  · obtain ⟨p, d, hparent, hp, hd, hdepth⟩ := hstands.parent hi
    obtain ⟨d', hd', hsame'⟩ := hchanged hd
    refine ⟨p, d', hsame.parent.trans hparent, hp, hd', ?_⟩
    rw [hsame.depth, hdepth, hsame'.depth]

theorem Arises.lawful (h : Arises a) : a.Lawful := by
  induction h with
  | new template output business isMain startedAt =>
    exact ofRoot_lawful template output business isMain startedAt
  | spawn _ hlive template isMain ih => exact ih.spawn hlive template isMain
  | release _ id ih => exact ih.release id
  | modify _ _ horigin ih => exact ih.modify horigin

/-! ## Ancestries -/

/-- The root's own ancestry. -/
theorem Lawful.leadsToRoot_root (h : a.Lawful) : a.LeadsToRoot a.root [a.root] := by
  have hroot := h 0 a.root rfl
  refine ⟨rfl, rfl, ?_, .singleton _, List.pairwise_singleton _ _, fun d hd => ?_⟩
  · rw [(hroot.root rfl).2]
    rfl
  · obtain rfl := List.mem_singleton.1 hd
    rw [hroot.id]
    rfl

/-- A context goes before the ancestry of its parent. -/
theorem LeadsToRoot.cons {d : Context} {l : List Context} (h : a.LeadsToRoot d l)
    (hc : a.get? c.id = some c) (hparent : c.parent = some d.id) (hid : d.id < c.id)
    (hdepth : c.depth = d.depth + 1) : a.LeadsToRoot c (c :: l) := by
  obtain ⟨hfirst, hlast, hlength, hparents, holder, hlive⟩ := h
  cases l with
  | nil => cases hfirst
  | cons d' l =>
    cases hfirst
    refine ⟨rfl, hlast, ?_, .cons_cons hparent hparents, ?_, ?_⟩
    · rw [List.length_cons, hlength, hdepth]
    · refine List.pairwise_cons.2 ⟨fun n hn => ?_, holder⟩
      rcases List.mem_cons.1 hn with rfl | hn
      · exact hid
      · exact Nat.lt_trans (List.rel_of_pairwise_cons holder hn) hid
    · exact List.forall_mem_cons.2 ⟨hc, hlive⟩

/-- The parents from a live place lead up to the root, when enough of them may be visited. -/
theorem Lawful.leadsToRoot_chain (h : a.Lawful) {steps : Nat} (hsteps : i < steps)
    (hc : a.get? i = some c) : a.LeadsToRoot c (a.chain steps i) := by
  induction steps generalizing i c with
  | zero => exact absurd hsteps (Nat.not_lt_zero i)
  | succ steps ih =>
    have hstands := h i c hc
    simp only [chain, hc]
    rcases Nat.eq_zero_or_pos i with rfl | hi
    · obtain rfl : a.root = c := Option.some.inj hc
      rw [(hstands.root rfl).1]
      exact h.leadsToRoot_root
    · obtain ⟨p, d, hparent, hp, hd, hdepth⟩ := hstands.parent hi
      have hdid : d.id = p := (h p d hd).id
      rw [hparent]
      refine (ih (by omega) hd).cons ?_ ?_ ?_ hdepth
      · rw [hstands.id, hc]
      · rw [hparent, hdid]
      · rw [hdid, hstands.id]
        exact hp

/-- The ancestry of a live place. -/
theorem Lawful.leadsToRoot (h : a.Lawful) (hi : i < a.size) :
    a.LeadsToRoot (a.get i) (a.ancestry i) :=
  h.leadsToRoot_chain hi (get?_eq_get hi)

/-! ## Spawning -/

theorem spawn_spawned (a : Arena) (parent : Nat) (template : String) (isMain : Bool) :
    a.Spawned parent template isMain (a.spawn parent template isMain) := by
  refine ⟨size_push a _, fun i hi => get?_push_of_lt hi, _, get?_push_size a _, rfl, rfl, rfl, ?_⟩
  cases isMain <;> exact ⟨rfl, rfl, rfl⟩

/-- **Every arena is lawful.** However an arena arises, it has a root without a parent and of depth
0, the context at each place bears the place's number, and the parent of every other context is
live, older, and one level higher, so that the ancestry of a live context ends at the root after as
many contexts as its depth tells, and one more. Spawning changes no context that there is, and a
release takes away the contexts from its place on and changes no other. -/
theorem arises_lawful (h : Arises a) :
    0 < a.size ∧ (∀ i c, a.get? i = some c → a.Stands i c) ∧
    (∀ i < a.size, a.LeadsToRoot (a.get i) (a.ancestry i)) ∧
    (∀ parent < a.size, ∀ template isMain,
      a.Spawned parent template isMain (a.spawn parent template isMain)) ∧
    a.release 0 = a ∧
    ∀ id, 0 < id → ∀ i, (a.release id).get? i = if i < id then a.get? i else none :=
  ⟨a.size_pos, h.lawful, fun _ hi => h.lawful.leadsToRoot hi,
    fun parent _ template isMain => spawn_spawned a parent template isMain, rfl,
    fun _ hid i => get?_release a hid i⟩

/-- An arena that was cut at its third place, which was then taken again by a child of the second
one. -/
def regrown : Arena :=
  let grown := (((ofRoot "main" "o" ⟨"BOP", "RATE", "P", ""⟩ true ⟨0⟩).spawn 0 "a" false).spawn 0
    "b" true).spawn 1 "c" false
  ((grown.release 2).modify 1 (·.apply (.slot "k" "v"))).spawn 1 "d" false

/-- Its newest context has the slot of its parent, and leads up to the root by way of it. -/
theorem regrown_lawful :
    regrown.Arises ∧ (regrown.ancestry 2).map (·.template) = ["d", "a", "main"] ∧
    (regrown.get 2).slot? "K" = some "v" ∧
    0 < regrown.size ∧ (∀ i c, regrown.get? i = some c → regrown.Stands i c) ∧
    (∀ i < regrown.size, regrown.LeadsToRoot (regrown.get i) (regrown.ancestry i)) ∧
    (∀ parent < regrown.size, ∀ template isMain,
      regrown.Spawned parent template isMain (regrown.spawn parent template isMain)) ∧
    regrown.release 0 = regrown ∧
    ∀ id, 0 < id → ∀ i,
      (regrown.release id).get? i = if i < id then regrown.get? i else none := by
  have harises : regrown.Arises := by
    refine .spawn (.modify (.release (.spawn (.spawn (.spawn (.new ..) ?_ _ _) ?_ _ _) ?_ _ _) _) ?_
      (Context.SameOrigin.apply _ _)) ?_ _ _ <;> decide +kernel
  exact ⟨harises, by decide +kernel, by decide +kernel, arises_lawful harises⟩

end Arena

end Stencil
