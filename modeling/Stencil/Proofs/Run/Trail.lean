import Stencil.Proofs.Run.Stages

/-!
# Trails

A trail has all stages that a run comes through from one stage to a later one. There is one trail
only to the last stage (`Trail.unique`), and what passes from each stage to the next is so at the
end of the trail (`Trail.invariant`). A property of plans that lasts while a plan is followed, and
that the plans of templates have, is one of all that is left to do, at whatever stage
(`next_leaves`).
-/

namespace Stencil

namespace Engine

/-- The stage `g` is followed, sooner or later, by the stage `h`, or is `h`; on the way a run comes
through the stages `gs`, of which `g` is the first and `h` is none. -/
inductive Trail (e : Engine) : Stage → List Stage → Stage → Prop where
  | refl {g : Stage} : Trail e g [] g
  | next {g h k : Stage} {gs : List Stage} (hnext : e.next g = some h) (rest : Trail e h gs k) :
      Trail e g (g :: gs) k

variable {e : Engine} {g h k : Stage} {gs hs : List Stage}

theorem Trail.goes (htrail : Trail e g gs h) : Goes e g h := by
  induction htrail with
  | refl => exact .refl
  | next hnext _ ih => exact .trans (.ofNext hnext) ih

theorem Goes.trail (hgoes : Goes e g h) : ∃ gs, Trail e g gs h := by
  induction hgoes using Relation.ReflTransGen.head_induction_on with
  | refl => exact ⟨[], .refl⟩
  | head hnext _ ih =>
    obtain ⟨gs, htrail⟩ := ih
    exact ⟨_, .next hnext htrail⟩

/-- There is one trail only to a last stage. -/
theorem Trail.unique (hgh : Trail e g gs h) (hgk : Trail e g hs k) (hh : e.next h = none)
    (hk : e.next k = none) : gs = hs ∧ h = k := by
  induction hgh generalizing hs with
  | refl =>
    cases hgk with
    | refl => exact ⟨rfl, rfl⟩
    | next hnext _ =>
      rw [hh] at hnext
      cases hnext
  | next hnext _ ih =>
    cases hgk with
    | refl =>
      rw [hk] at hnext
      cases hnext
    | next hnext' hrest =>
      cases Option.some.inj (hnext.symm.trans hnext')
      obtain ⟨rfl, rfl⟩ := ih hrest hh
      exact ⟨rfl, rfl⟩

/-- What is so at the first stage of a trail, and passes from each stage to the next one, is so at
its end. -/
theorem Trail.invariant {P : List Stage → Stage → Prop}
    (hnext : ∀ gs g h, e.next g = some h → P gs g → P (gs ++ [g]) h) (htrail : Trail e g gs h)
    (hstart : P [] g) : P gs h := by
  suffices ∀ before, P before g → P (before ++ gs) h from this [] hstart
  clear hstart
  induction htrail with
  | refl =>
    intro before hbefore
    rwa [List.append_nil]
  | @next g h k gs hstep _ ih =>
    intro before hbefore
    have hrest := ih (before ++ [g]) (hnext before g h hstep hbefore)
    rwa [List.append_assoc] at hrest

end Engine

/-! ## What is left to do -/

/-- A property of plans that what is left of a plan keeps, when the engine `e` follows it. -/
structure Plan.Lasts (e : Engine) (P : Plan Unit → Prop) : Prop where
  fail (err : Error) : P (.fail err)
  look {k : Sight → Plan Unit} (h : P (.look k)) (r : Run) : P (k (e.sight r))
  act {i : Instruction} {p : Plan Unit} (h : P (.act i p)) : P p
  fields {b : Bool} {k : Option (List Field) → Plan Unit} (h : P (.fields b k))
    (fs : Option (List Field)) : P (k fs)
  call {t : String} {m : Bool} {c : List Change} {p : Plan Unit} (h : P (.call t m c p)) : P p

/-- At the stage and at those that wait for it a plan with a property is left. -/
structure Stage.Leaves (P : Plan Unit → Prop) (g : Stage) : Prop where
  plan : P g.plan
  waiting : ∀ w ∈ g.waiting, P w.rest

namespace Engine

variable {e : Engine} {g h : Stage}

/-- A property that lasts, and that the plans of templates have, passes from stage to stage. -/
theorem next_leaves {P : Plan Unit → Prop} (hP : Plan.Lasts e P)
    (hsource : ∀ template source, e.store template = .ok source → P (e.rules.sourcePlan source))
    (hnext : e.next g = some h) (hg : g.Leaves P) : h.Leaves P := by
  obtain ⟨hplan, hwaiting⟩ := hg
  cases next_eq_some_iff.1 hnext with
  | @returned _ w ws =>
    exact ⟨hwaiting w List.mem_cons_self, fun v hv => hwaiting v (List.mem_cons_of_mem w hv)⟩
  | @aborted _ _ w ws => exact ⟨hplan, fun v hv => hwaiting v (List.mem_cons_of_mem w hv)⟩
  | looked => exact ⟨hP.look hplan _, hwaiting⟩
  | acted => exact ⟨hP.act hplan, hwaiting⟩
  | answered => exact ⟨hP.fields hplan _, hwaiting⟩
  | failed => exact ⟨hP.fail _, hwaiting⟩
  | called _ hfound =>
    refine ⟨hsource _ _ hfound, fun w hw => ?_⟩
    rcases List.mem_cons.1 hw with rfl | hw
    · exact hP.call hplan
    · exact hwaiting w hw

/-- So it is one of all stages of a trail. -/
theorem Trail.leaves {P : Plan Unit → Prop} {gs : List Stage} (hP : Plan.Lasts e P)
    (hsource : ∀ template source, e.store template = .ok source → P (e.rules.sourcePlan source))
    (htrail : Trail e g gs h) (hg : g.Leaves P) : ∀ k ∈ gs, k.Leaves P := by
  induction htrail with
  | refl => exact List.forall_mem_nil _
  | next hnext _ ih =>
    intro k hk
    rcases List.mem_cons.1 hk with rfl | hk
    · exact hg
    · exact ih (next_leaves hP hsource hnext hg) k hk

end Engine

end Stencil
