import Stencil.Proofs.Project.Outputs
import Stencil.Proofs.Text.Upper

/-!
# The program names of a validated project

The program of a job has the name that the job gives, or else the one that its output stands for:
the file name up to its last dot, in upper case. Validation looks at the names that are given only.
So a job of a validated project has a COBOL program name just if it gives one, or if its output ends
in such a name, with or without an extension behind it (`validated_programs_iff`). An output that
names nothing in the output directory ends as the directory does.
-/

namespace Stencil

/-! ## Program names -/

namespace Naming

open Text

variable {s t e : String}

/-- One to eight ASCII letters and digits, a letter first. -/
structure IsProgram (s : String) : Prop where
  length : 1 ≤ s.length ∧ s.length ≤ 8
  starts : s.toList.head?.any Char.isAlpha
  chars : ∀ c ∈ s.toList, c.isAlphanum

/-- A file name that is a program name, or one with an extension behind it. -/
def GivesProgram (s : String) : Prop :=
  ∃ t, IsProgram t ∧ (s = t ∨ ∃ e : String, '.' ∉ e.toList ∧ s = t ++ "." ++ e)

theorem isProgramName_iff : isProgramName s = true ↔ IsProgram s := by
  have hlength : s.length = s.toList.length := String.length_toList.symm
  rw [isProgramName]
  cases hs : s.toList with
  | nil =>
    refine ⟨fun h => absurd h Bool.false_ne_true, fun h => ?_⟩
    have hstarts := h.starts
    rw [hs] at hstarts
    cases hstarts
  | cons c cs =>
    rw [hs, List.length_cons] at hlength
    simp only [Bool.and_eq_true, decide_eq_true_eq, List.all_eq_true]
    constructor
    · rintro ⟨⟨hc, hcs⟩, hlast⟩
      refine ⟨by omega, by rw [hs]; exact hc, ?_⟩
      rw [hs]
      exact List.forall_mem_cons.2 ⟨by simp [Char.isAlphanum, hc], hcs⟩
    · rintro ⟨hlength', hstarts, hchars⟩
      rw [hs] at hstarts hchars
      exact ⟨⟨hstarts, (List.forall_mem_cons.1 hchars).2⟩, by omega⟩

/-- Upper case makes no program name, and spoils none. -/
theorem isProgram_upper : IsProgram (upper s) ↔ IsProgram s := by
  have hlength : (upper s).length = s.length := by
    rw [← String.length_toList, toList_upper, List.length_map, String.length_toList]
  have hstarts : (upper s).toList.head?.any Char.isAlpha = s.toList.head?.any Char.isAlpha := by
    rw [toList_upper, List.head?_map]
    cases s.toList.head? with
    | none => rfl
    | some c => exact isAlpha_toUpper c
  have hchars : (∀ c ∈ (upper s).toList, c.isAlphanum) ↔ ∀ c ∈ s.toList, c.isAlphanum := by
    rw [toList_upper, List.forall_mem_map]
    simp only [isAlphanum_toUpper]
  constructor
  · intro h
    exact ⟨hlength ▸ h.length, hstarts ▸ h.starts, hchars.1 h.chars⟩
  · intro h
    exact ⟨hlength ▸ h.length, hstarts ▸ h.starts, hchars.2 h.chars⟩

theorem IsProgram.not_dot (h : IsProgram s) : '.' ∉ s.toList := fun hmem =>
  absurd (h.chars '.' hmem) (by decide)

theorem IsProgram.ne_nil (h : IsProgram s) : s.toList ≠ [] := by
  intro hnil
  have hlength := h.length.1
  rw [← String.length_toList, hnil] at hlength
  exact absurd hlength (by decide)

end Naming

/-! ## File names -/

namespace Path

open Naming

variable {p q : Path} {s t e : String}

/-- A file name up to its last dot. -/
def stem (s : String) : String :=
  match s.toList.reverse.dropWhile (· != '.') with
  | [] => s
  | [_] => s
  | _ :: front => String.ofList front.reverse

theorem fileStem_eq (p : Path) : p.fileStem = p.fileName.map stem := rfl

/-- A name is its own stem, or it goes on with a dot and no other one behind that. -/
theorem stem_cases (s : String) :
    stem s = s ∨ ∃ e : String, '.' ∉ e.toList ∧ s = stem s ++ "." ++ e := by
  have hsplit := List.takeWhile_append_dropWhile (p := (· != '.')) (l := s.toList.reverse)
  have hhead := List.head?_dropWhile_not (· != '.') s.toList.reverse
  have hdots : '.' ∉ s.toList.reverse.takeWhile (· != '.') := fun hmem => by
    simpa using List.all_eq_true.1 List.all_takeWhile _ hmem
  rw [stem]
  split
  · exact .inl rfl
  · exact .inl rfl
  · next c front _ hdropped =>
    rw [hdropped] at hsplit hhead
    obtain rfl : c = '.' := by simpa using hhead
    generalize s.toList.reverse.takeWhile (· != '.') = behind at hsplit hdots
    have htext : s.toList = front.reverse ++ '.' :: behind.reverse := by
      rw [← List.reverse_reverse s.toList, ← hsplit]
      simp
    refine .inr ⟨String.ofList behind.reverse, by simpa using hdots, String.toList_injective ?_⟩
    simp [htext]

theorem stem_of_not_dot (hs : '.' ∉ s.toList) : stem s = s := by
  have hnone : s.toList.reverse.dropWhile (· != '.') = [] := List.dropWhile_eq_nil_iff.2 fun c hc =>
    bne_iff_ne.2 fun hdot => hs (List.mem_reverse.1 (hdot ▸ hc))
  rw [stem, hnone]

/-- Only the last extension is dropped, and nothing before it is empty. -/
theorem stem_append (ht : t.toList ≠ []) (he : '.' ∉ e.toList) : stem (t ++ "." ++ e) = t := by
  have htext : (t ++ "." ++ e).toList.reverse = e.toList.reverse ++ '.' :: t.toList.reverse := by
    simp
  have hbehind : ∀ c ∈ e.toList.reverse, (c != '.') = true := fun c hc =>
    bne_iff_ne.2 fun hdot => he (List.mem_reverse.1 (hdot ▸ hc))
  have hdropped : (t ++ "." ++ e).toList.reverse.dropWhile (· != '.') = '.' :: t.toList.reverse := by
    rw [htext, List.dropWhile_append_of_pos hbehind, List.dropWhile_cons_of_neg (by simp)]
  obtain ⟨c, front, hfront⟩ := List.exists_cons_of_ne_nil (List.reverse_ne_nil_iff.2 ht)
  rw [stem, hdropped, hfront]
  show String.ofList (c :: front).reverse = t
  rw [← hfront, List.reverse_reverse, String.ofList_toList]

/-- The stem of a file name is a program name just if the file name gives one. -/
theorem isProgram_stem (s : String) : IsProgram (stem s) ↔ GivesProgram s := by
  constructor
  · intro h
    refine ⟨stem s, h, ?_⟩
    rcases stem_cases s with hsame | hbehind
    · exact .inl hsame.symm
    · exact .inr hbehind
  · rintro ⟨t, ht, rfl | ⟨e, he, rfl⟩⟩
    · rwa [stem_of_not_dot ht.not_dot]
    · rwa [stem_append ht.ne_nil he]

/-- A path stands for a program just if it ends in a file name that gives one. -/
theorem isProgram_programOfOutput (p : Path) :
    IsProgram (programOfOutput p) ↔ ∃ s, p.fileName = some s ∧ GivesProgram s := by
  rw [programOfOutput, isProgram_upper, fileStem_eq]
  cases p.fileName with
  | none =>
    refine ⟨fun h => absurd rfl h.ne_nil, ?_⟩
    rintro ⟨s, hs, -⟩
    cases hs
  | some s => simp [isProgram_stem]

/-- The file name of a path is the last thing it names behind what stands in front. -/
theorem fileName_eq (p : Path) : p.fileName = match p.plain.getLast? with
    | some (.name s) => some s
    | _ => none := by
  rw [fileName, components_eq, List.getLast?_append]
  cases hlast : p.plain.getLast? with
  | some c => rfl
  | none =>
    rcases p.front_cases with ⟨hfront, -⟩ | ⟨-, hfront | hfront⟩ <;> rw [hfront] <;> rfl

/-- A relative path brings its file name along, unless it names nothing. -/
theorem fileName_join (b : Path) (hp : p.isAbsolute = false) :
    (b.join p).fileName = if p.plain = [] then b.fileName else p.fileName := by
  cases hb : b.isEmpty with
  | true =>
    rw [join_of_isEmpty hb, String.isEmpty_iff.1 hb]
    split
    · next hnothing =>
      rw [fileName_eq, hnothing]
      rfl
    · rfl
  | false =>
    rw [fileName, components_join hb hp, List.getLast?_append]
    by_cases hnothing : p.plain = []
    · rw [if_pos hnothing, hnothing]
      rfl
    · rw [if_neg hnothing, fileName_eq, List.getLast?_eq_some_getLast hnothing]
      rfl

end Path

/-! ## Validated projects -/

namespace ProjectFile

open Naming

variable {f : ProjectFile} {root : Path} {j : Job}

/-- The file name that a job's output ends in: that of the output directory when the output names
nothing below it. -/
def fileNameOf (f : ProjectFile) (root : Path) (j : Job) : Option String :=
  if j.output.isAbsolute = false ∧ j.output.plain = [] then
    (Path.join root f.defaults.outputDir).fileName
  else j.output.fileName

theorem fileName_outputOf (f : ProjectFile) (root : Path) (j : Job) :
    (f.outputOf root j).fileName = f.fileNameOf root j := by
  rw [fileNameOf]
  cases hj : j.output.isAbsolute with
  | true => rw [outputOf_absolute hj, if_neg (by simp)]
  | false =>
    rw [outputOf, hj, if_neg Bool.false_ne_true, Path.fileName_join _ hj]
    simp

/-- No job of a validated project has an issue of its own. -/
theorem jobIssues_of_validate (h : f.validate = []) (hj : j ∈ f.jobs) :
    ∃ i, f.jobIssues i j = [] := by
  have hissues : (f.jobs.mapIdx (f.jobIssues ·)).flatten = [] :=
    (List.append_eq_nil_iff.1 (List.append_eq_nil_iff.1 h).1).2
  obtain ⟨i, hi, rfl⟩ := List.getElem_of_mem hj
  exact ⟨i, List.flatten_eq_nil_iff.1 hissues _ (List.mem_mapIdx.2 ⟨i, hi, rfl⟩)⟩

/-- So the names that its COBOL jobs give are program names. -/
theorem isProgram_of_given (h : f.validate = []) (hj : j ∈ f.jobs) (hcobol : f.backendOf j = .cobol)
    {name : String} (hname : j.programName = some name) : IsProgram name := by
  obtain ⟨i, hi⟩ := jobIssues_of_validate h hj
  have hgiven := (List.append_eq_nil_iff.1 hi).2
  simp only [hname, hcobol] at hgiven
  rw [← isProgramName_iff]
  by_contra hinvalid
  simp [hinvalid] at hgiven

/-- **The program names of a validated project.** Every name that a COBOL job gives is a program
name. One that it does not give stands for its output, and is a program name just if the output ends
in a file name that gives one: validation does not look there. -/
theorem validated_programs_iff (h : f.validate = []) (root : Path) :
    ∀ j ∈ f.jobs, (f.merge root j).backend = .cobol →
      (IsProgram (f.merge root j).request.effectiveProgram ↔
        j.programName.isSome ∨ ∃ name, f.fileNameOf root j = some name ∧ GivesProgram name) := by
  intro j hj hcobol
  have hprogram : (f.merge root j).request.effectiveProgram =
      j.programName.getD (programOfOutput (f.outputOf root j)) := rfl
  rw [hprogram]
  cases hname : j.programName with
  | some name => simp [isProgram_of_given h hj hcobol hname]
  | none =>
    rw [Option.getD_none, Path.isProgram_programOfOutput, fileName_outputOf]
    simp

/-- Jobs whose outputs have program names in front of extensions, but for one that gives a name. -/
def namedJobs : ProjectFile where
  version := 1
  name := "rating"
  defaults := {}
  jobs :=
    [{ template := "a.cbt", output := "rates/bopRate1.v2.cbl", insuranceLine := "BOP",
       processType := "RATE", programName := some "BOPRATE1" },
     { template := "b.cbt", output := "rates/glrate.cbl", insuranceLine := "GL",
       processType := "RATE" }]

/-- All of them have program names. -/
theorem namedJobs_programs : namedJobs.validate = [] ∧
    ∀ j ∈ namedJobs.jobs, (namedJobs.merge "/proj" j).backend = .cobol ∧
      IsProgram (namedJobs.merge "/proj" j).request.effectiveProgram := by
  have hvalid : namedJobs.validate = [] :=
    validate_of_sorted (by decide) (by decide +kernel) (by decide +kernel) (by decide +kernel)
  have hgives : GivesProgram "glrate.cbl" :=
    ⟨"glrate", isProgramName_iff.1 (by decide), .inr ⟨"cbl", by decide, by decide⟩⟩
  have hnamed : ∀ j ∈ namedJobs.jobs, (namedJobs.merge "/proj" j).backend = .cobol ∧
      (j.programName.isSome ∨ namedJobs.fileNameOf "/proj" j = some "glrate.cbl") := by
    decide +kernel
  refine ⟨hvalid, fun j hj => ?_⟩
  obtain ⟨hcobol, hname⟩ := hnamed j hj
  exact ⟨hcobol, (validated_programs_iff hvalid "/proj" j hj hcobol).2
    (hname.imp_right fun hname => ⟨_, hname, hgives⟩)⟩

/-- A job whose output has a dash in its name. -/
def dashedJob : ProjectFile where
  version := 1
  name := "rating"
  defaults := {}
  jobs :=
    [{ template := "a.cbt", output := "BOP-RATE.cbl", insuranceLine := "BOP",
       processType := "RATE" }]

/-- It is found valid, and its program is no COBOL program. -/
theorem dashedJob_program : dashedJob.validate = [] ∧
    ¬ ∀ j ∈ dashedJob.jobs, (dashedJob.merge "/proj" j).backend = .cobol →
      IsProgram (dashedJob.merge "/proj" j).request.effectiveProgram := by
  have hvalid : dashedJob.validate = [] :=
    validate_of_sorted (by decide) (by decide +kernel) (by decide +kernel) (by decide +kernel)
  have hnot : ¬ ∀ j ∈ dashedJob.jobs, (dashedJob.merge "/proj" j).backend = .cobol →
      isProgramName (dashedJob.merge "/proj" j).request.effectiveProgram = true := by
    decide +kernel
  exact ⟨hvalid, fun hall => hnot fun j hj hcobol => isProgramName_iff.2 (hall j hj hcobol)⟩

end ProjectFile

end Stencil
