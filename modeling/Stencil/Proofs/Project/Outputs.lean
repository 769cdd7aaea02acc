import Stencil.Project.Config
import Stencil.Proofs.Path.Components

/-!
# The outputs of a validated project

Validation sorts the outputs as they are written in the project file and compares neighbours. The
order is total, so that all of them are different when no issue is found (`pairwise_of_validate`).
But what counts is where the outputs go, and validation does not look at the directory they are
joined to. Two jobs of a validated project write one file just if their outputs meet there
(`validated_outputs_iff`): if one of them has a `.` in front, or is absolute and lies in this
directory.
-/

namespace Stencil

namespace ProjectFile

variable {f : ProjectFile} {root p q : Path} {ps : List Path} {i j : Job}

/-! ## Sorted paths -/

/-- A path may stand in front of another when they are sorted. -/
def upTo (p q : Path) : Bool := !Path.compsBefore q.components p.components

theorem upTo_total (p q : Path) : (upTo p q || upTo q p) = true := by
  rw [upTo, upTo]
  cases h : Path.compsBefore q.components p.components with
  | false => rfl
  | true => rw [Path.compsBefore_asymm h]; rfl

theorem upTo_iff : upTo p q = true ↔ p.components = q.components ∨
    Path.compsBefore p.components q.components = true := by
  rw [upTo, Bool.not_eq_true']
  constructor
  · intro h
    rcases Path.compsBefore_total p.components q.components with heq | hbefore | hbehind
    · exact .inl heq
    · exact .inr hbefore
    · rw [h] at hbehind
      cases hbehind
  · rintro (heq | hbefore)
    · rw [heq, Path.compsBefore_irrefl]
    · exact Path.compsBefore_asymm hbefore

theorem upTo_trans (p q r : Path) (hpq : upTo p q = true) (hqr : upTo q r = true) :
    upTo p r = true := by
  rw [upTo_iff] at hpq hqr ⊢
  rcases hpq with hpq | hpq
  · rw [hpq]
    exact hqr
  · rcases hqr with hqr | hqr
    · exact .inr (hqr ▸ hpq)
    · exact .inr (Path.compsBefore_trans hpq hqr)

/-- Where no neighbours in sorted paths name the same, no two of them do. -/
theorem pairwise_of_repeatedIssues (hsorted : ps.Pairwise (upTo · · = true))
    (h : repeatedIssues ps = []) : ps.Pairwise fun p q => p.components ≠ q.components := by
  induction ps with
  | nil => exact .nil
  | cons p ps ih =>
    cases ps with
    | nil => exact List.pairwise_singleton _ p
    | cons q ps =>
      obtain ⟨hp, hrest⟩ := List.pairwise_cons.1 hsorted
      rw [repeatedIssues, List.append_eq_nil_iff] at h
      have hne : p.components ≠ q.components := fun heq => by simp [heq] at h
      refine List.pairwise_cons.2 ⟨List.forall_mem_cons.2 ⟨hne, fun r hr heq => ?_⟩, ih hrest h.2⟩
      -- what stands behind `q` and names what `p` does would stand in front of `q`
      have hqr := (List.pairwise_cons.1 hrest).1 r hr
      rw [upTo_iff, ← heq] at hqr
      rcases upTo_iff.1 (hp q List.mem_cons_self) with hpq | hpq
      · exact hne hpq
      · rcases hqr with hqp | hqp
        · exact hne hqp.symm
        · have hself := Path.compsBefore_trans hpq hqp
          rw [Path.compsBefore_irrefl] at hself
          cases hself

theorem sortPaths_of_pairwise (hsorted : ps.Pairwise (upTo · · = true)) : sortPaths ps = ps :=
  List.mergeSort_of_pairwise hsorted

/-- A project whose outputs are written in order is found valid if no neighbours among them are the
same and there is nothing else. -/
theorem validate_of_sorted (hlimit : f.defaults.limits.maxIterations ≠ 0)
    (hjobs : (f.jobs.mapIdx (f.jobIssues ·)).flatten = [])
    (hsorted : (f.jobs.map (·.output)).Pairwise (upTo · · = true))
    (hrepeated : repeatedIssues (f.jobs.map (·.output)) = []) : f.validate = [] := by
  rw [validate, if_neg hlimit, hjobs, sortPaths_of_pairwise hsorted, hrepeated]
  rfl

/-- No two outputs of a validated project are the same path. -/
theorem pairwise_of_validate (h : f.validate = []) :
    f.jobs.Pairwise fun i j => i.output.components ≠ j.output.components := by
  have hissues : repeatedIssues (sortPaths (f.jobs.map (·.output))) = [] :=
    (List.append_eq_nil_iff.1 h).2
  have hsorted := List.pairwise_mergeSort upTo_trans upTo_total (f.jobs.map (·.output))
  have hperm := List.mergeSort_perm (f.jobs.map (·.output)) upTo
  have hall : (f.jobs.map (·.output)).Pairwise fun p q => p.components ≠ q.components :=
    (hperm.pairwise_iff Ne.symm).1 (pairwise_of_repeatedIssues hsorted hissues)
  rwa [List.pairwise_map] at hall

/-! ## Joined outputs -/

/-- Two outputs name one file once they are joined to `base`: relative ones when they are the same
behind a `.` in front, and an absolute one with a relative one when it leads to what that one names
from `base`. Nothing is joined to an empty path. -/
def Meets (base p q : Path) : Prop :=
  base.isEmpty = false ∧
    (p.isAbsolute = false ∧ q.isAbsolute = false ∧ p.plain = q.plain ∨
      p.isAbsolute = true ∧ q.isAbsolute = false ∧ p.components = base.components ++ q.plain ∨
      p.isAbsolute = false ∧ q.isAbsolute = true ∧ q.components = base.components ++ p.plain)

instance (base p q : Path) : Decidable (Meets base p q) := inferInstanceAs (Decidable (_ ∧ _))

theorem outputOf_absolute (hj : j.output.isAbsolute = true) : f.outputOf root j = j.output := by
  rw [outputOf, hj, if_pos rfl]

theorem outputOf_of_isEmpty (hbase : (Path.join root f.defaults.outputDir).isEmpty = true) :
    f.outputOf root j = j.output := by
  rw [outputOf, Path.join_of_isEmpty hbase, ite_self]

theorem components_outputOf (hj : j.output.isAbsolute = false)
    (hbase : (Path.join root f.defaults.outputDir).isEmpty = false) :
    (f.outputOf root j).components =
      (Path.join root f.defaults.outputDir).components ++ j.output.plain := by
  rw [outputOf, hj, if_neg Bool.false_ne_true, Path.components_join hbase hj]

/-- Different outputs go to one file just if they meet. -/
theorem outputOf_eq_iff (hne : i.output.components ≠ j.output.components) :
    (f.outputOf root i).components = (f.outputOf root j).components ↔
      Meets (Path.join root f.defaults.outputDir) i.output j.output := by
  cases hbase : (Path.join root f.defaults.outputDir).isEmpty with
  | true =>
    rw [outputOf_of_isEmpty hbase, outputOf_of_isEmpty hbase]
    refine ⟨fun h => absurd h hne, fun h => ?_⟩
    rw [h.1] at hbase
    cases hbase
  | false =>
    cases hi : i.output.isAbsolute <;> cases hj : j.output.isAbsolute
    case false.false =>
      rw [components_outputOf hi hbase, components_outputOf hj hbase, Meets, hi, hj]
      simp [hbase]
    case false.true =>
      rw [components_outputOf hi hbase, outputOf_absolute hj, Meets, hi, hj]
      simp [hbase, eq_comm]
    case true.false =>
      rw [outputOf_absolute hi, components_outputOf hj hbase, Meets, hi, hj]
      simp [hbase]
    case true.true =>
      rw [outputOf_absolute hi, outputOf_absolute hj, Meets, hi, hj]
      simp [hne]

/-- **Where the outputs of a validated project go.** Two of its jobs write one file just if their
outputs meet in the directory that the project gives. So no two do when all outputs are relative
and none has a `.` in front. -/
theorem validated_outputs_iff (h : f.validate = []) (root : Path) :
    (f.jobs.Pairwise fun i j =>
      (f.merge root i).request.output.components = (f.merge root j).request.output.components ↔
        Meets (Path.join root f.defaults.outputDir) i.output j.output) ∧
      ((∀ j ∈ f.jobs, j.output.front = none) → f.jobs.Pairwise fun i j =>
        (f.merge root i).request.output.components ≠
          (f.merge root j).request.output.components) := by
  have hraw := pairwise_of_validate h
  refine ⟨hraw.imp outputOf_eq_iff, fun hfront => hraw.imp_of_mem fun {i j} hi hj hne heq => ?_⟩
  have hsame : i.output.front = j.output.front := (hfront i hi).trans (hfront j hj).symm
  have hi := Path.isAbsolute_of_front (hfront i hi)
  have hj := Path.isAbsolute_of_front (hfront j hj)
  obtain ⟨-, ⟨-, -, hplain⟩ | ⟨habsolute, -⟩ | ⟨-, habsolute, -⟩⟩ := (outputOf_eq_iff hne).1 heq
  · exact hne (Path.components_eq_iff.2 ⟨hsame, hplain⟩)
  · rw [hi] at habsolute
    cases habsolute
  · rw [hj] at habsolute
    cases habsolute

/-- Three jobs whose outputs are spelled in three ways. -/
def spelledJobs : ProjectFile where
  version := 1
  name := "rating"
  defaults := {}
  jobs :=
    [{ template := "c.cbt", output := "/out/C.cbl", insuranceLine := "BOP", processType := "RATE" },
     { template := "a.cbt", output := "./A.cbl", insuranceLine := "BOP", processType := "RATE" },
     { template := "b.cbt", output := "x//B.cbl", insuranceLine := "BOP", processType := "RATE" }]

/-- They go to three files. -/
theorem spelledJobs_apart : spelledJobs.validate = [] ∧
    spelledJobs.jobs.Pairwise fun i j =>
      (spelledJobs.merge "/proj" i).request.output.components ≠
        (spelledJobs.merge "/proj" j).request.output.components := by
  have hvalid : spelledJobs.validate = [] :=
    validate_of_sorted (by decide) (by decide +kernel) (by decide +kernel) (by decide +kernel)
  have hapart : spelledJobs.jobs.Pairwise fun i j =>
      ¬ Meets (Path.join "/proj" spelledJobs.defaults.outputDir) i.output j.output := by
    decide +kernel
  exact ⟨hvalid, ((validated_outputs_iff hvalid "/proj").1.and hapart).imp
    fun ⟨hiff, hnot⟩ heq => hnot (hiff.1 heq)⟩

/-- Two jobs with one output, of which one is written with a `.` in front. -/
def dottedJobs : ProjectFile where
  version := 1
  name := "rating"
  defaults := {}
  jobs :=
    [{ template := "a.cbt", output := "./A.cbl", insuranceLine := "BOP", processType := "RATE" },
     { template := "b.cbt", output := "A.cbl", insuranceLine := "BOP", processType := "RATE" }]

/-- They are found valid, and write one file. -/
theorem dottedJobs_meet : dottedJobs.validate = [] ∧
    ¬ dottedJobs.jobs.Pairwise fun i j =>
      (dottedJobs.merge "/proj" i).request.output.components ≠
        (dottedJobs.merge "/proj" j).request.output.components := by
  have hvalid : dottedJobs.validate = [] :=
    validate_of_sorted (by decide) (by decide +kernel) (by decide +kernel) (by decide +kernel)
  exact ⟨hvalid, by decide +kernel⟩

end ProjectFile

end Stencil
