import Stencil.Proofs.Project.Isolated
import Stencil.Proofs.Project.Stable

/-!
# Settings of jobs

A record holds digests of files, and a job is judged by these (`Project.staleness`). What else it is
run with, its backend, table, names and limits, is not compared: two jobs with the same files are
judged alike whatever their settings (`staleness_of_sameFiles`). So a job that was generated under
one project file is fresh under another one, and is left as it is (`settings_unnoticed`), although
it would be generated with other lines (`otherJob_fresh`).
-/

namespace Stencil

open Disk Effect

namespace Ledger

/-- Saving makes directories and puts one file into place at most. -/
theorem save_grows_only (l : Ledger) (dir : Path) (d : Disk) :
    Grows (· = d.place (dir.join ledgerFileName)) d (l.save dir d).2 := by
  have hmade : Grows (· = d.place (dir.join ledgerFileName)) d (d.makeDirectories dir).2 :=
    .makeFrom d _
  unfold save
  split
  · next hdirectories =>
    rwa [hdirectories] at hmade
  · next hdirectories =>
    rw [hdirectories] at hmade
    split
    · exact hmade
    · next hwritten => exact hmade.trans (.write (hmade.place _) hwritten)

end Ledger

namespace Project

variable {p p' : Project} {S : Place → Prop} {tables : Provider} {force : Bool} {now : Moment}
  {l last : Ledger} {d : Disk} {j j' : MergedJob} {js before rest : List MergedJob} {k : Nat}

/-! ## Regenerations that leave a job alone -/

/-- A run over jobs lets the disk grow where they put files, also when it fails. -/
theorem runJobs_grows_only (hS : ∀ i ∈ js, S (d.place i.request.output)) :
    Grows S d (p.runJobs tables force now l js d).2 := by
  induction js generalizing l d with
  | nil => exact .refl
  | cons j js ih =>
    have hgenerate := (j.workshop tables).generate_grows j.request now (hS j List.mem_cons_self)
    have hothers : ∀ i ∈ js, S (d.place i.request.output) := fun i hi =>
      hS i (List.mem_cons_of_mem j hi)
    rw [runJobs, get_bind]
    dsimp only
    split
    · exact Work.bind_grows (ih hothers) fun _ => .refl
    · have hjob : Grows S d (p.runJob tables now l (p.staleness l d j) j d).2 := by
        refine Work.bind_grows hgenerate fun result => ?_
        cases result with
        | error cause => exact .refl
        | ok report => exact Work.bind_grows .refl fun _ => .refl
      refine Work.bind_grows hjob fun _ => Work.bind_grows (ih fun i hi => ?_) fun _ => .refl
      rw [hjob.place]
      exact hothers i hi

/-- A job that is fresh at its turn puts no file. -/
theorem runJobs_grows_skip (hbefore : ∀ i ∈ before, S (d.place i.request.output))
    (hrest : ∀ i ∈ rest, S (d.place i.request.output))
    (hfresh : ∀ outcomes l₁ d₁,
      p.runJobs tables false now l before d = (.ok (outcomes, l₁), d₁) →
      p.staleness l₁ d₁ j = .fresh) :
    Grows S d (p.runJobs tables false now l (before ++ j :: rest) d).2 := by
  have hgrows : Grows S d (p.runJobs tables false now l before d).2 := runJobs_grows_only hbefore
  rw [runJobs_append, bind_eq]
  rcases hrun : p.runJobs tables false now l before d with ⟨_ | ⟨outcomes, l₁⟩, d₁⟩
  · rwa [hrun] at hgrows
  · rw [hrun] at hgrows
    refine hgrows.trans (Work.bind_grows ?_ fun _ => .refl)
    rw [runJobs, get_bind, hfresh outcomes l₁ d₁ hrun]
    refine Work.bind_grows (runJobs_grows_only fun i hi => ?_) fun _ => .refl
    rw [hgrows.place]
    exact hrest i hi

/-- A regeneration lets the disk grow as its jobs do, and where the ledger is saved. -/
theorem regen_grows (hledger : p.ledger d = .ok l) (hown : S (d.place p.ledgerPath))
    (h : ∀ schema, p.schema d = .ok schema →
      Grows S d (p.runJobs (provider schema) force now l p.jobs d).2) :
    Grows S d (p.regen force now d).2 := by
  unfold regen
  cases p.file.validate.isEmpty with
  | false => exact .refl
  | true =>
    show Grows S d ((Work.query p.ledger >>= _) d).2
    rw [Work.query_bind hledger]
    cases hschema : p.schema d with
    | error cause =>
      rw [bind_eq, Work.query, hschema]
      exact .refl
    | ok schema =>
      rw [Work.query_bind hschema]
      have hjobs := h schema hschema
      refine Work.bind_grows hjobs fun x => Work.bind_grows ?_ fun _ => .refl
      refine (x.2.save_grows_only p.outputDir _).mono ?_
      rintro a rfl
      exact (hjobs.place p.ledgerPath).symm ▸ hown

/-- A regeneration that comes to its outcomes has loaded the schema. -/
theorem schema_of_regen {outcomes : List JobOutcome} {after : Disk} (hledger : p.ledger d = .ok l)
    (h : p.regen force now d = (.ok outcomes, after)) : ∃ schema, p.schema d = .ok schema := by
  cases hschema : p.schema d with
  | ok schema => exact ⟨schema, rfl⟩
  | error cause =>
    unfold regen at h
    cases hvalid : p.file.validate.isEmpty with
    | false =>
      rw [hvalid] at h
      cases h
    | true =>
      rw [hvalid] at h
      change (Work.query p.ledger >>= _) d = _ at h
      rw [Work.query_bind hledger, bind_eq, Work.query, hschema] at h
      cases h

/-- A job that is fresh is fresh when its turn comes. -/
theorem fresh_at_turn {schema : Option Schema} {outcomes : List JobOutcome} {d₁ : Disk}
    (hschema : p.schema d = .ok schema) (hapart : p.Apart l d) (hj : p.jobs[k]? = some j)
    (hfresh : p.staleness l d j = .fresh)
    (h : p.runJobs (provider schema) false now l (p.jobs.take k) d =
      (.ok (outcomes, last), d₁)) : p.staleness last d₁ j = .fresh := by
  have hmem : j ∈ p.jobs := List.mem_of_getElem? hj
  have hprogress := runJobs_progress (S := p.outputPlaces d)
    (fun i hi => ⟨i, List.mem_of_mem_take hi, rfl⟩) h
  have hrecord := hprogress.record? j (hapart.key_not_mem hj)
  refine fresh_of_progress hprogress (hapart.key_not_mem hj) (fun q hq => ?_)
    (fun q hq => fingerprint?_schema hschema hmem hq) hfresh
  rw [inputs_congr hrecord] at hq
  exact hapart.not_outputPlaces hmem hq

/-- So it is skipped, -/
theorem skipped_of_fresh {schema : Option Schema} {outcomes : List JobOutcome} {done : Disk}
    (hschema : p.schema d = .ok schema) (hapart : p.Apart l d) (hj : p.jobs[k]? = some j)
    (hfresh : p.staleness l d j = .fresh)
    (h : p.runJobs (provider schema) false now l p.jobs d = (.ok (outcomes, last), done)) :
    outcomes[k]? = some (.skipped j.request.output) := by
  have hk : k < outcomes.length := by
    rw [runJobs_length h]
    exact (List.getElem?_eq_some_iff.1 hj).1
  have ho := List.getElem?_eq_getElem hk
  obtain ⟨l₁, d₁, hbefore, l₂, d₂, hone, -⟩ := runJobs_at h hj ho
  obtain ⟨o, l₃, d₃, rest, hcons, hskipped, -⟩ := runJobs_cons_cases hone
  obtain ⟨heq, -⟩ := List.cons.inj hcons
  rw [ho, heq]
  rcases hskipped with ⟨rfl, -⟩ | ⟨hstale, -⟩
  · rfl
  · exact absurd (fresh_at_turn hschema hapart hj hfresh hbefore) (hstale rfl)

/-- and no file is put where its output is, even if the run fails of another job. -/
theorem runJobs_grows_around {schema : Option Schema} (hschema : p.schema d = .ok schema)
    (hapart : p.Apart l d) (hplaces : (p.jobs.map fun j => d.place j.request.output).Nodup)
    (hj : p.jobs[k]? = some j) (hfresh : p.staleness l d j = .fresh) :
    Grows (· ≠ d.place j.request.output) d
      (p.runJobs (provider schema) false now l p.jobs d).2 := by
  obtain ⟨hplace, hplace'⟩ := image_not_mem hplaces hj
  obtain ⟨hk, hget⟩ := List.getElem?_eq_some_iff.1 hj
  have hsplit : p.jobs = p.jobs.take k ++ j :: p.jobs.drop (k + 1) := by
    rw [← hget, ← List.drop_eq_getElem_cons hk, List.take_append_drop]
  rw [hsplit]
  exact runJobs_grows_skip (fun i hi heq => hplace (List.mem_map.2 ⟨i, hi, heq⟩))
    (fun i hi heq => hplace' (List.mem_map.2 ⟨i, hi, heq⟩))
    (fun _ _ _ => fresh_at_turn hschema hapart hj hfresh)

/-- **A job that is fresh is left alone.** Whatever becomes of the regeneration, the output stays as
it is, and where it comes to its outcomes the job was skipped. -/
theorem regen_of_fresh (hledger : p.ledger d = .ok l) (hapart : p.Apart l d)
    (hplaces : (p.jobs.map fun j => d.place j.request.output).Nodup)
    (hown : d.place j.request.output ≠ d.place p.ledgerPath) (hj : p.jobs[k]? = some j)
    (hfresh : p.staleness l d j = .fresh) (now : Moment) :
    (p.regen false now d).2.contentAt (d.place j.request.output) =
        d.contentAt (d.place j.request.output) ∧
      ∀ outcomes after, p.regen false now d = (.ok outcomes, after) →
        outcomes[k]? = some (.skipped j.request.output) := by
  refine ⟨?_, fun outcomes after hregen => ?_⟩
  · have hgrows : Grows (· ≠ d.place j.request.output) d (p.regen false now d).2 :=
      regen_grows hledger hown.symm fun schema hschema =>
        runJobs_grows_around hschema hapart hplaces hj hfresh
    exact hgrows.contentAt fun hne => hne rfl
  · obtain ⟨schema, hschema⟩ := schema_of_regen hledger hregen
    obtain ⟨-, done, hjobs, -⟩ := regen_last hledger hschema hregen
    exact skipped_of_fresh hschema hapart hj hfresh hjobs

/-! ## Jobs with the same files -/

/-- Two projects give two jobs the same files: the output, the template, the schema, and the ledger
of the directory. -/
structure SameFiles (p p' : Project) (j j' : MergedJob) : Prop where
  outputDir : p'.outputDir = p.outputDir
  output : j'.request.output = j.request.output
  template : j'.templatePath = j.templatePath
  schema : j'.schema = j.schema

/-- Jobs are judged by their files, whatever they are run with. -/
theorem staleness_of_sameFiles (h : SameFiles p p' j j') :
    p'.staleness l d j' = p.staleness l d j := by
  rw [staleness, staleness, h.outputDir, h.output, h.template, h.schema]

/-- Two projects in one directory have the same ledger. -/
theorem ledger_of_outputDir (h : p'.outputDir = p.outputDir) : p'.ledger d = p.ledger d := by
  rw [ledger, ledger, h]

/-- **The settings of a job are not compared.** Let a regeneration have generated a job, as in
`regen_settles`, and let another project give a job the same files, with whatever settings. The two
are judged alike by any ledger on any disk. So the second job is fresh by the ledger that was saved,
and regenerating the other project at any later moment leaves the output as it is: the job is
skipped where the regeneration comes to its outcomes. -/
theorem settings_unnoticed (p p' : Project) (force : Bool) (now : Moment) (l : Ledger)
    (schema : Option Schema) (d after : Disk) (outcomes : List JobOutcome) (k k' : Nat)
    (j j' : MergedJob) (output : Path) (reason : Staleness) (report : Report)
    (hledger : p.ledger d = .ok l) (hschema : p.schema d = .ok schema)
    (hregen : p.regen force now d = (.ok outcomes, after)) (hj : p.jobs[k]? = some j)
    (ho : outcomes[k]? = some (.generated output reason report))
    (hapart : p.Apart (p.lastLedger schema force now l d) d)
    (hown : p.LedgerApart (p.lastLedger schema force now l d) d)
    (hyaml : Ledger.ofYaml (p.lastLedger schema force now l d).text =
      .ok (p.lastLedger schema force now l d))
    (hj' : p'.jobs[k']? = some j') (hsame : SameFiles p p' j j')
    (hapart' : p'.Apart (p.lastLedger schema force now l d) after)
    (hplaces' : (p'.jobs.map fun i => after.place i.request.output).Nodup)
    (hown' : after.place j'.request.output ≠ after.place p'.ledgerPath) :
    (∀ l₁ d₁, p'.staleness l₁ d₁ j' = p.staleness l₁ d₁ j) ∧
      p'.ledger after = .ok (p.lastLedger schema force now l d) ∧
      p'.staleness (p.lastLedger schema force now l d) after j' = .fresh ∧
      ∀ moment,
        (p'.regen false moment after).2.contentAt (after.place j'.request.output) =
            after.contentAt (after.place j'.request.output) ∧
          ∀ outcomes' later, p'.regen false moment after = (.ok outcomes', later) →
            outcomes'[k']? = some (.skipped j'.request.output) := by
  obtain ⟨-, done, hjobs, hsaved⟩ := regen_last hledger hschema hregen
  generalize p.lastLedger schema force now l d = last at hapart hown hyaml hapart' hjobs hsaved ⊢
  have hledger' : p'.ledger after = .ok last :=
    (ledger_of_outputDir hsame.outputDir).trans (ledger_of_save hyaml hsaved)
  have hfresh : p'.staleness last after j' = .fresh :=
    (staleness_of_sameFiles hsame).trans
      (fresh_of_save hschema hapart hown hjobs hsaved hj ho rfl)
  exact ⟨fun _ _ => staleness_of_sameFiles hsame, hledger', hfresh,
    regen_of_fresh hledger' hapart' hplaces' hown' hj' hfresh⟩

/-- A job for an insurance line, with the files of `onlyJob`. -/
def lineJob (insuranceLine : String) : Job where
  template := "a.cbt"
  output := "A.cbl"
  insuranceLine := insuranceLine
  processType := "RATE"

/-- The project with one job for another insurance line. -/
def otherJob : Project where
  root := "/w"
  file := { version := 1, name := "rating", defaults := {}, jobs := [lineJob "GL"] }

/-- The job of this project. -/
def otherOnlyJob : MergedJob := otherJob.file.merge "/w" (lineJob "GL")

theorem sameFiles_otherJob : SameFiles oneJob otherJob onlyJob otherOnlyJob := ⟨rfl, rfl, rfl, rfl⟩

/-- The job for another insurance line is fresh, and its output stays as it is. -/
theorem otherJob_unnoticed :
    SameFiles oneJob otherJob onlyJob otherOnlyJob ∧
      ∃ after, oneJob.regen false ⟨0⟩ freshDisk =
          (.ok [.generated "/w/generated/A.cbl" .neverGenerated onlyReport], after) ∧
        otherJob.staleness onlyLedger after otherOnlyJob = .fresh ∧
        (otherJob.regen false ⟨60⟩ after).2.contentAt ["w", "generated", "A.cbl"] =
          after.contentAt ["w", "generated", "A.cbl"] := by
  have hapart : oneJob.Apart onlyLedger freshDisk := ⟨by decide +kernel, by decide +kernel⟩
  have hown : oneJob.LedgerApart onlyLedger freshDisk := ⟨nofun, by decide +kernel⟩
  have hgrows : Grows (fun _ => True) freshDisk (oneJob.regen false ⟨0⟩ freshDisk).2 :=
    regen_grows ledger_freshDisk trivial fun _ _ => runJobs_grows_only fun _ _ => trivial
  have hinputs : ∀ i ∈ otherJob.jobs, ∀ j ∈ otherJob.jobs, ∀ q ∈ otherJob.inputs onlyLedger j,
      freshDisk.place i.request.output ≠ freshDisk.place q := by decide +kernel
  have hledgerFile : freshDisk.place otherOnlyJob.request.output ≠
      freshDisk.place otherJob.ledgerPath := by decide +kernel
  have hlast := lastLedger_freshDisk
  obtain ⟨-, -, hfresh, hkept⟩ := settings_unnoticed oneJob otherJob false ⟨0⟩ {} none freshDisk
    (oneJob.regen false ⟨0⟩ freshDisk).2 _ 0 0 onlyJob otherOnlyJob _ _ onlyReport ledger_freshDisk
    rfl regen_freshDisk rfl rfl (hlast ▸ hapart) (hlast ▸ hown) (hlast ▸ ofYaml_onlyLedger) rfl
    sameFiles_otherJob
    ⟨List.pairwise_singleton _ _, fun i hi j hj q hq => by
      rw [hlast] at hq
      rw [hgrows.place, hgrows.place]
      exact hinputs i hi j hj q hq⟩
    (List.pairwise_singleton _ _) (by rwa [hgrows.place, hgrows.place])
  obtain ⟨hkept, -⟩ := hkept ⟨60⟩
  rw [hlast] at hfresh
  rw [hgrows.place] at hkept
  exact ⟨sameFiles_otherJob, _, regen_freshDisk, hfresh, hkept⟩

/-! ## A job with another insurance line -/

/-- What the job of `oneJob` writes. -/
def businessLines : List String := ["      * BOP", "       STOP RUN."]

/-- What the job of `otherJob` writes. -/
def generalLines : List String := ["      * GL", "       STOP RUN."]

/-- What a job leaves on the disk of the templates. -/
def freshAlone (j : MergedJob) : Disk :=
  ((j.workshop (provider none)).generate j.request ⟨0⟩ freshDisk).2

theorem validate_otherJob : otherJob.file.validate = [] :=
  ProjectFile.validate_of_sorted (by decide) (by decide +kernel) (by decide +kernel)
    (by decide +kernel)

theorem generate_onlyJob : (onlyJob.workshop (provider none)).generate onlyJob.request ⟨0⟩
    freshDisk = (.ok onlyReport, freshAlone onlyJob) := by
  rw [freshAlone]
  exact eq_ok_of_fst (by decide +kernel)

theorem generate_otherOnlyJob : (otherOnlyJob.workshop (provider none)).generate
    otherOnlyJob.request ⟨0⟩ freshDisk = (.ok onlyReport, freshAlone otherOnlyJob) := by
  rw [freshAlone]
  exact eq_ok_of_fst (by decide +kernel)

theorem read_onlyJob :
    (freshAlone onlyJob).read "/w/generated/A.cbl" = .ok (fileOfLines businessLines) :=
  eq_ok_of_toOption (by decide +kernel)

theorem read_otherOnlyJob :
    (freshAlone otherOnlyJob).read "/w/generated/A.cbl" = .ok (fileOfLines generalLines) :=
  eq_ok_of_toOption (by decide +kernel)

/-- The other project would write other lines, but its job is fresh and keeps the old ones. -/
theorem otherJob_fresh :
    oneJob.file.validate = [] ∧ otherJob.file.validate = [] ∧ oneJob.jobs = [onlyJob] ∧
      otherJob.jobs = [otherOnlyJob] ∧ SameFiles oneJob otherJob onlyJob otherOnlyJob ∧
      (onlyJob.workshop (provider none)).generate onlyJob.request ⟨0⟩ freshDisk =
        (.ok onlyReport, freshAlone onlyJob) ∧
      (otherOnlyJob.workshop (provider none)).generate otherOnlyJob.request ⟨0⟩ freshDisk =
        (.ok onlyReport, freshAlone otherOnlyJob) ∧
      (freshAlone onlyJob).read "/w/generated/A.cbl" = .ok (fileOfLines businessLines) ∧
      (freshAlone otherOnlyJob).read "/w/generated/A.cbl" = .ok (fileOfLines generalLines) ∧
      businessLines ≠ generalLines ∧
      ∃ after later, oneJob.regen false ⟨0⟩ freshDisk =
          (.ok [.generated "/w/generated/A.cbl" .neverGenerated onlyReport], after) ∧
        otherJob.status after = .ok [⟨"a.cbt", "/w/generated/A.cbl", .cobol, .fresh⟩] ∧
        otherJob.regen false ⟨0⟩ after = (.ok [.skipped "/w/generated/A.cbl"], later) ∧
        later.read "/w/generated/A.cbl" = .ok (fileOfLines businessLines) := by
  obtain ⟨-, done, hjobs, hsaved⟩ := regen_last ledger_freshDisk rfl regen_freshDisk
  rw [lastLedger_freshDisk] at hjobs hsaved
  have hapart : oneJob.Apart onlyLedger freshDisk := ⟨by decide +kernel, by decide +kernel⟩
  have hown : oneJob.LedgerApart onlyLedger freshDisk := ⟨nofun, by decide +kernel⟩
  -- the regeneration has done what the job does alone
  obtain ⟨hnot, -⟩ | ⟨_, _, _, -, -, hgenerate, -⟩ := turn_cases (j := onlyJob) hjobs
  · cases hnot
  obtain rfl : freshAlone onlyJob = done :=
    (Prod.mk.inj (generate_onlyJob.symm.trans hgenerate)).2
  have hfresh : otherJob.staleness onlyLedger _ otherOnlyJob = .fresh :=
    (staleness_of_sameFiles sameFiles_otherJob).trans
      (fresh_of_save (k := 0) (j := onlyJob) rfl hapart hown hjobs hsaved rfl rfl rfl)
  have hledger : otherJob.ledger _ = .ok onlyLedger := ledger_of_save ofYaml_onlyLedger hsaved
  obtain ⟨later, hagain, -⟩ := Ledger.save_again hsaved
  have hplace : (freshAlone onlyJob).place "/w/generated/A.cbl" ≠
      (freshAlone onlyJob).place oneJob.ledgerPath := by decide +kernel
  have hgrows : Grows (· = (freshAlone onlyJob).place oneJob.ledgerPath) (freshAlone onlyJob)
      later := by
    have hsave := Ledger.save_grows hsaved
    exact hsave.trans ((Ledger.save_grows hagain).mono fun a ha => ha.trans (hsave.place _))
  refine ⟨validate_oneJob, validate_otherJob, rfl, rfl, sameFiles_otherJob, generate_onlyJob,
    generate_otherOnlyJob, read_onlyJob, read_otherOnlyJob, by decide, _, later, regen_freshDisk,
    ?_, (regen_eq_ok_iff hledger rfl).2 ⟨by rw [validate_otherJob]; rfl, onlyLedger, _,
      runJobs_of_fresh (List.forall_mem_singleton.2 hfresh), hagain⟩,
    hgrows.read_eq_ok hplace read_onlyJob⟩
  rw [status, hledger]
  show Except.ok [(⟨_, _, _, otherJob.staleness onlyLedger _ otherOnlyJob⟩ : JobStatus)] = _
  rw [hfresh]
  exact congrArg Except.ok (by decide +kernel)

end Project

end Stencil
