import Stencil.Proofs.Project.Saved

/-!
# Regenerated projects are fresh

What a record notes is true of the files at that moment (`Ledger.verdict_recordOf`), and a job that
is fresh stays so while records of other jobs are noted and files are put elsewhere
(`fresh_of_progress`, `fresh_of_grows`). So each job that did not fail is fresh when all jobs have
had their turns (`fresh_of_runJobs`), and when the ledger was saved, which is one more file. A
regeneration without failures leaves nothing to be done (`regen_settles`).
-/

namespace Stencil

open Disk Effect

/-! ## Records are true when they are made -/

namespace Ledger

variable {d d' : Disk} {ps : List Path} {r : OutputRecord} {template : Path} {schema : Option Path}

theorem verdict_eq_fresh_iff : verdict d r template schema = .fresh ↔
    sameSources d r template = true ∧ schema.bind d.fingerprint? = r.schemaDigest := by
  unfold verdict
  cases sameSources d r template with
  | false => simp
  | true => simp

/-- What a record notes is true of the files that it is made of. -/
theorem verdict_recordOf {backend : Backend} {lines : Nat} {now : Moment}
    (h : recordOf d template ps schema backend lines now = .ok r) :
    verdict d r template schema = .fresh := by
  obtain ⟨fragments, hfragments, h⟩ := except_bind_eq_ok_iff.1 h
  obtain ⟨templateDigest, htemplate, h⟩ := except_bind_eq_ok_iff.1 h
  obtain ⟨schemaDigest, hschema, h⟩ := except_bind_eq_ok_iff.1 h
  cases h
  refine verdict_eq_fresh_iff.2 ⟨?_, ?_⟩
  · simp only [sameSources, sameFragments, Bool.and_eq_true, beq_iff_eq, List.all_eq_true]
    exact ⟨fingerprint?_eq_some_iff.2 htemplate, fun e he =>
      fingerprint?_eq_some_iff.2 (of_mem_fingerprints hfragments e he).2⟩
  · cases schema with
    | none =>
      cases hschema
      rfl
    | some q =>
      obtain ⟨x, hx, hsome⟩ := except_bind_eq_ok_iff.1 hschema
      cases hsome
      exact fingerprint?_eq_some_iff.2 hx

end Ledger

namespace Project

variable {p : Project} {S : Place → Prop} {force : Bool} {now : Moment} {l l' last : Ledger}
  {d d' done after : Disk} {j : MergedJob} {js : List MergedJob} {o : JobOutcome}
  {outcomes : List JobOutcome} {schema : Option Schema}

/-! ## Jobs that stay fresh -/

theorem inputs_congr (h : p.record? l' j = p.record? l j) : p.inputs l' j = p.inputs l j := by
  rw [inputs, inputs, h]

/-- A job is judged by its schema. -/
theorem schema_mem_inputs {q : Path} (hq : q ∈ j.schema) : q ∈ p.inputs l j :=
  List.mem_cons_of_mem _ (List.mem_append_left _ (Option.mem_toList.2 hq))

/-- A fresh job stays fresh while files are put elsewhere. -/
theorem fresh_of_grows (hgrows : Grows S d d') (hS : ∀ q ∈ p.inputs l j, ¬ S (d.place q))
    (hschema : ∀ q ∈ j.schema, ∃ x, d.fingerprint? q = some x)
    (hfresh : p.staleness l d j = .fresh) : p.staleness l d' j = .fresh := by
  obtain ⟨r, hr, hexists, hversion, hsources, hdigest⟩ := staleness_eq_fresh_iff.1 hfresh
  have hkept : ∀ q ∈ p.inputs l j, ∀ x, d.fingerprint? q = some x → d'.fingerprint? q = some x :=
    fun q hq _ => hgrows.fingerprint?_eq_some (hS q hq)
  rw [← sameSources_of_record hr] at hsources
  have hsources' := sameSources_mono hkept hsources
  rw [sameSources_of_record hr] at hsources'
  refine staleness_eq_fresh_iff.2 ⟨r, hr, hgrows.exists? hexists, hversion, hsources', ?_⟩
  cases hq : j.schema with
  | none => rwa [hq] at hdigest
  | some q =>
    obtain ⟨x, hx⟩ := hschema q hq
    rw [hq, Option.bind_some, hx] at hdigest
    rw [Option.bind_some, hkept q (schema_mem_inputs hq) x hx, hdigest]

/-- It stays fresh by a later ledger of this version that has its record. -/
theorem fresh_of_record (hrecord : p.record? l' j = p.record? l j)
    (hversion : l'.toolVersion = release) (hfresh : p.staleness l d j = .fresh) :
    p.staleness l' d j = .fresh := by
  obtain ⟨r, hr, hexists, -, hsources⟩ := staleness_eq_fresh_iff.1 hfresh
  exact staleness_eq_fresh_iff.2 ⟨r, hrecord.trans hr, hexists, hversion, hsources⟩

/-- So it stays fresh while other jobs have their turns. -/
theorem fresh_of_progress (hprogress : Progress p S js l d outcomes l' d')
    (hkey : p.key j ∉ js.map p.key) (hS : ∀ q ∈ p.inputs l' j, ¬ S (d.place q))
    (hschema : ∀ q ∈ j.schema, ∃ x, d.fingerprint? q = some x)
    (hfresh : p.staleness l d j = .fresh) : p.staleness l' d' j = .fresh := by
  have hrecord := hprogress.record? j hkey
  obtain ⟨-, -, -, hversion, -⟩ := staleness_eq_fresh_iff.1 hfresh
  have hversion' : l'.toolVersion = release := by
    rw [hprogress.toolVersion, hversion]
    split <;> rfl
  rw [inputs_congr hrecord] at hS
  exact fresh_of_record hrecord hversion' (fresh_of_grows hprogress.grows hS hschema hfresh)

/-- After its turn a job is fresh, unless it failed. -/
theorem fresh_of_turn {provider : Provider}
    (h : p.runJobs provider force now l [j] d = (.ok ([o], l'), d'))
    (hok : o.isFailed = false) : p.staleness l' d' j = .fresh := by
  obtain ⟨o', l₁, d₁, rest, hcons, hturn, hnil⟩ := runJobs_cons_cases h
  obtain ⟨rfl, rfl⟩ := List.cons.inj hcons
  cases hnil
  obtain ⟨-, rfl, rfl, hfresh⟩ | ⟨-, hjob⟩ := hturn
  · exact hfresh
  · obtain ⟨cause, rfl, -⟩ | ⟨report, r, -, rfl, hgenerate, hrecord⟩ := runJob_cases hjob
    · cases hok
    · obtain ⟨lines, hwrites⟩ := Workshop.generate_eq_ok_iff.1 hgenerate
      obtain ⟨hsources, hdigest⟩ := Ledger.verdict_eq_fresh_iff.1 (Ledger.verdict_recordOf hrecord)
      exact staleness_eq_fresh_iff.2 ⟨r, (Ledger.find?_note ..).trans (if_pos rfl),
        exists?_of_read hwrites.read, rfl, hsources, hdigest⟩

/-- When all jobs have had their turns, those are fresh that did not fail. -/
theorem fresh_of_runJobs (hschema : p.schema d = .ok schema) (hapart : p.Apart last d)
    (h : p.runJobs (provider schema) force now l p.jobs d = (.ok (outcomes, last), done)) {k : Nat}
    (hj : p.jobs[k]? = some j) (ho : outcomes[k]? = some o) (hok : o.isFailed = false) :
    p.staleness last done j = .fresh := by
  have hmem : j ∈ p.jobs := List.mem_of_getElem? hj
  obtain ⟨l₁, d₁, hbefore, l₂, d₂, hone, hrest⟩ := runJobs_at h hj ho
  have hgrows₁ : Grows (p.outputPlaces d) d d₁ := (runJobs_progress
    (fun i hi => ⟨i, List.mem_of_mem_take hi, rfl⟩) hbefore).grows
  have hgrows₂ : Grows (p.outputPlaces d) d d₂ := hgrows₁.trans (runJobs_progress
    (List.forall_mem_singleton.2 ⟨j, hmem, (hgrows₁.place _).symm⟩) hone).grows
  have hlater : Progress p (p.outputPlaces d) _ l₂ d₂ _ last done := runJobs_progress
    (fun i hi => ⟨i, List.mem_of_mem_drop hi, (hgrows₂.place _).symm⟩) hrest
  refine fresh_of_progress hlater (key_not_mem hapart.keys hj).2 (fun q hq => ?_) (fun q hq => ?_)
    (fresh_of_turn hone hok)
  · rw [hgrows₂.place]
    exact hapart.not_outputPlaces hmem hq
  · obtain ⟨x, hx⟩ := fingerprint?_schema hschema hmem hq
    exact ⟨x, hgrows₂.fingerprint?_eq_some
      (hapart.not_outputPlaces hmem (schema_mem_inputs hq)) hx⟩

/-- Nothing is done about jobs that are all fresh. -/
theorem runJobs_of_fresh {provider : Provider} (h : ∀ j ∈ js, p.staleness l d j = .fresh) :
    p.runJobs provider false now l js d =
      (.ok (js.map fun j => .skipped j.request.output, l), d) := by
  induction js with
  | nil => rfl
  | cons j js ih =>
    rw [runJobs, get_bind, h j List.mem_cons_self]
    exact bind_eq_ok_iff.2 ⟨_, d, ih fun i hi => h i (List.mem_cons_of_mem j hi), rfl⟩

/-! ## Regenerations without failures -/

/-- The file of the ledger is not the schema, nor a file that a job is judged by. -/
structure LedgerApart (p : Project) (l : Ledger) (d : Disk) : Prop where
  schema : ∀ q ∈ p.schemaPath, d.place q ≠ d.place p.ledgerPath
  inputs : ∀ j ∈ p.jobs, ∀ q ∈ p.inputs l j, d.place q ≠ d.place p.ledgerPath

/-- The schema is loaded again after the jobs have had their turns and the ledger was saved. -/
theorem schema_of_save (hschema : p.schema d = .ok schema) (hapart : p.Apart last d)
    (hown : p.LedgerApart last d) (hdone : Grows (p.outputPlaces d) d done)
    (hsaved : last.save p.outputDir done = (.ok (), after)) : p.schema after = .ok schema := by
  refine schema_eq_ok hschema fun q hq content hread => ?_
  have hnot : ¬ p.outputPlaces d (d.place q) := by
    rintro ⟨i, hi, hplace⟩
    exact hapart.inputs i hi i hi q (schema_mem_inputs (schema_eq_schemaPath hi ▸ hq)) hplace
  refine (Ledger.save_grows hsaved).read_eq_ok ?_ (hdone.read_eq_ok hnot hread)
  rw [hdone.place, hdone.place]
  exact hown.schema q hq

/-- When the ledger was saved, those jobs are fresh that did not fail. -/
theorem fresh_of_save (hschema : p.schema d = .ok schema) (hapart : p.Apart last d)
    (hown : p.LedgerApart last d)
    (h : p.runJobs (provider schema) force now l p.jobs d = (.ok (outcomes, last), done))
    (hsaved : last.save p.outputDir done = (.ok (), after)) {k : Nat}
    (hj : p.jobs[k]? = some j) (ho : outcomes[k]? = some o) (hok : o.isFailed = false) :
    p.staleness last after j = .fresh := by
  have hmem : j ∈ p.jobs := List.mem_of_getElem? hj
  have hgrows := (runJobs_progress (S := p.outputPlaces d) (fun i hi => ⟨i, hi, rfl⟩) h).grows
  refine fresh_of_grows (Ledger.save_grows hsaved) (fun q hq => ?_) (fun q hq => ?_)
    (fresh_of_runJobs hschema hapart h hj ho hok)
  · rw [hgrows.place, hgrows.place]
    exact hown.inputs _ hmem q hq
  · obtain ⟨x, hx⟩ := fingerprint?_schema hschema hmem hq
    exact ⟨x, hgrows.fingerprint?_eq_some
      (hapart.not_outputPlaces hmem (schema_mem_inputs hq)) hx⟩

/-- **A regeneration without failures leaves nothing to be done.** Let no job have failed, no two
jobs share a record, no output be a file that a job is judged by, and the file of the ledger be none
of these files. If the text of the last ledger is read as that ledger, it is the ledger of the
project from now on, and by it every job is fresh. Regenerating at any later moment then skips every
job and leaves every file and the ledger as they are. -/
theorem regen_settles (p : Project) (force : Bool) (now : Moment) (l : Ledger)
    (schema : Option Schema) (d after : Disk) (outcomes : List JobOutcome)
    (hledger : p.ledger d = .ok l) (hschema : p.schema d = .ok schema)
    (hregen : p.regen force now d = (.ok outcomes, after))
    (hok : ∀ o ∈ outcomes, o.isFailed = false)
    (hapart : p.Apart (p.lastLedger schema force now l d) d)
    (hown : p.LedgerApart (p.lastLedger schema force now l d) d)
    (hyaml : Ledger.ofYaml (p.lastLedger schema force now l d).text =
      .ok (p.lastLedger schema force now l d)) :
    p.ledger after = .ok (p.lastLedger schema force now l d) ∧
      p.status after = .ok (p.jobs.map fun j =>
        ⟨j.request.template, j.request.output, j.backend, .fresh⟩) ∧
      ∀ moment, ∃ later,
        p.regen false moment after =
          (.ok (p.jobs.map fun j => .skipped j.request.output), later) ∧
        (∀ a, later.find? a = after.find? a) ∧
        p.ledger later = .ok (p.lastLedger schema force now l d) := by
  obtain ⟨hvalid, done, hjobs, hsaved⟩ := regen_last hledger hschema hregen
  generalize p.lastLedger schema force now l d = last at hapart hown hyaml hjobs hsaved ⊢
  have hprogress := runJobs_progress (S := p.outputPlaces d) (fun i hi => ⟨i, hi, rfl⟩) hjobs
  -- every job is fresh when the ledger is saved, and so it is afterwards
  have hfresh : ∀ j ∈ p.jobs, p.staleness last after j = .fresh := by
    intro j hj
    obtain ⟨k, hk, rfl⟩ := List.getElem_of_mem hj
    have hk' : k < outcomes.length := hprogress.length.symm ▸ hk
    exact fresh_of_save hschema hapart hown hjobs hsaved (List.getElem?_eq_getElem hk)
      (List.getElem?_eq_getElem hk') (hok _ (List.getElem_mem hk'))
  have hledger' : p.ledger after = .ok last := ledger_of_save hyaml hsaved
  have hschema' : p.schema after = .ok schema :=
    schema_of_save hschema hapart hown hprogress.grows hsaved
  refine ⟨hledger', ?_, fun moment => ?_⟩
  · rw [status, hledger']
    exact congrArg Except.ok (List.map_congr_left fun j hj => by rw [hfresh j hj])
  · obtain ⟨later, hagain, hsame⟩ := Ledger.save_again hsaved
    exact ⟨later, (regen_eq_ok_iff hledger' hschema').2
      ⟨hvalid, last, after, runJobs_of_fresh hfresh, hagain⟩, hsame, ledger_of_save hyaml hagain⟩

/-- The text of the last ledger of the project with one job is read as this ledger. -/
theorem ofYaml_onlyLedger : Ledger.ofYaml onlyLedger.text = .ok onlyLedger := by
  refine eq_ok_of_toOption ?_
  -- from characters the text need not be decoded again
  rw [Ledger.ofYaml, Yaml.decode?, Yaml.Document.ofString?, Yaml.Token.scan?, Yaml.Glyph.ofString?,
    Ledger.toList_text]
  decide +kernel

/-- The job of the project has been generated, is fresh and is skipped. -/
theorem freshDisk_settles :
    (∀ o ∈ [JobOutcome.generated "/w/generated/A.cbl" .neverGenerated onlyReport],
        o.isFailed = false) ∧
      oneJob.Apart onlyLedger freshDisk ∧ oneJob.LedgerApart onlyLedger freshDisk ∧
      Ledger.ofYaml onlyLedger.text = .ok onlyLedger ∧
      ∃ later, oneJob.regen false ⟨60⟩ (oneJob.regen false ⟨0⟩ freshDisk).2 =
        (.ok [.skipped "/w/generated/A.cbl"], later) := by
  have hok : ∀ o ∈ [JobOutcome.generated "/w/generated/A.cbl" .neverGenerated onlyReport],
      o.isFailed = false := by decide
  have hapart : oneJob.Apart onlyLedger freshDisk := ⟨by decide +kernel, by decide +kernel⟩
  have hown : oneJob.LedgerApart onlyLedger freshDisk := ⟨nofun, by decide +kernel⟩
  have hlast := lastLedger_freshDisk
  obtain ⟨-, -, hagain⟩ := regen_settles oneJob false ⟨0⟩ {} none freshDisk
    (oneJob.regen false ⟨0⟩ freshDisk).2 _ ledger_freshDisk rfl regen_freshDisk hok
    (hlast ▸ hapart) (hlast ▸ hown) (hlast ▸ ofYaml_onlyLedger)
  obtain ⟨later, hlater, -⟩ := hagain ⟨60⟩
  exact ⟨hok, hapart, hown, ofYaml_onlyLedger, later, hlater⟩

/-! ## A ledger that is a template

What is noted of the file of the ledger is overtaken when the ledger is saved.
-/

/-- A project whose template is the file of its ledger. -/
def selfProject : Project where
  root := "/w"
  file :=
    { version := 1, name := "rating", defaults := { templateDir := "generated" }
      jobs :=
        [{ template := ledgerFileName, output := "A.cbl", insuranceLine := "BOP"
           processType := "RATE" }] }

/-- The job of the project. -/
def selfJob : MergedJob :=
  selfProject.file.merge "/w"
    { template := ledgerFileName, output := "A.cbl", insuranceLine := "BOP"
      processType := "RATE" }

/-- A ledger without records. -/
def selfDisk : Disk where
  entries :=
    [(["w"], .directory), (["w", "generated"], .directory),
     (["w", "generated", ledgerFileName], .file (Text.encode "tool_version: 0.3.0\n"))]

/-- The ledger once the job has been generated. -/
def selfLedger : Ledger where
  outputs := .ofList
    [("A.cbl",
      { template := "/w/generated/.rategen_meta.yaml"
        templateDigest := "038f316f97fc1770c60e98017fbfcd8ba6b1029388e5856d27248800b5b4555c"
        fragments := .empty
        backend := .cobol
        lines := 1
        generatedAt := ⟨0⟩ })]

/-- The disk when the job has had its turn. -/
def selfDone : Disk :=
  (selfProject.runJobs (provider none) false ⟨0⟩ {} selfProject.jobs selfDisk).2

/-- The disk when the ledger was saved. -/
def selfAfter : Disk := (selfLedger.save selfProject.outputDir selfDone).2

theorem staleness_selfAfter
    (hsaved : selfLedger.save selfProject.outputDir selfDone = (.ok (), selfAfter)) :
    selfProject.staleness selfLedger selfAfter selfJob = .templateChanged := by
  have hfind : (selfLedger.find? selfProject.outputDir selfJob.request.output).map
      (·.templateDigest) =
        some "038f316f97fc1770c60e98017fbfcd8ba6b1029388e5856d27248800b5b4555c" := by
    decide +kernel
  obtain ⟨r, hr, hdigest⟩ := Option.map_eq_some_iff.1 hfind
  have hthere : selfAfter.exists? selfJob.request.output = true := by decide +kernel
  have hpath : selfJob.templatePath = selfProject.ledgerPath := by decide +kernel
  have hchanged : (selfAfter.fingerprint? selfProject.ledgerPath == some r.templateDigest) =
      false := by
    rw [hdigest, ledgerPath, fingerprint?_eq, Ledger.read_of_save hsaved, Text.encode,
      Ledger.toList_text]
    decide +kernel
  rw [staleness, Ledger.staleness_eq, hr]
  dsimp only
  rw [if_neg (by simp [hthere]), if_neg (by decide)]
  refine Ledger.verdict_eq_templateChanged_iff.2 ?_
  rw [Ledger.sameSources, hpath, hchanged, Bool.false_and]

/-- Saving the ledger changes the template of the job that it has just recorded. -/
theorem selfDisk_unsettled :
    selfProject.file.validate = [] ∧ selfProject.ledger selfDisk = .ok {} ∧
      selfProject.schema selfDisk = .ok none ∧ selfProject.Apart selfLedger selfDisk ∧
      (∀ j ∈ selfProject.jobs, selfDisk.place j.request.output ≠
        selfDisk.place selfProject.ledgerPath ∧
        selfDisk.place j.request.output ≠
          selfDisk.place (selfProject.root.join projectFileName)) ∧
      Ledger.ofYaml selfLedger.text = .ok selfLedger ∧
      selfProject.regen false ⟨0⟩ selfDisk = (.ok [.generated "/w/generated/A.cbl" .neverGenerated
        { linesRead := 1, linesWritten := 1 }], selfAfter) ∧
      selfProject.status selfAfter =
        .ok [⟨ledgerFileName, "/w/generated/A.cbl", .cobol, .templateChanged⟩] := by
  have hvalid : selfProject.file.validate = [] := by
    have hsorted : ProjectFile.sortPaths ["A.cbl"] = ["A.cbl"] := List.mergeSort_singleton _
    show _ ++ _ ++ ProjectFile.repeatedIssues (ProjectFile.sortPaths ["A.cbl"]) = []
    rw [hsorted]
    decide +kernel
  have hledger : selfProject.ledger selfDisk = .ok {} := eq_ok_of_toOption (by decide +kernel)
  have hyaml : Ledger.ofYaml selfLedger.text = .ok selfLedger := by
    refine eq_ok_of_toOption ?_
    rw [Ledger.ofYaml, Yaml.decode?, Yaml.Document.ofString?, Yaml.Token.scan?,
      Yaml.Glyph.ofString?, Ledger.toList_text]
    decide +kernel
  have hjobs : selfProject.runJobs (provider none) false ⟨0⟩ {} selfProject.jobs selfDisk =
      (.ok ([.generated "/w/generated/A.cbl" .neverGenerated
        { linesRead := 1, linesWritten := 1 }], selfLedger), selfDone) := by
    rw [selfDone]
    exact eq_ok_of_fst (by decide +kernel)
  have hsaved : selfLedger.save selfProject.outputDir selfDone = (.ok (), selfAfter) := by
    rw [selfAfter]
    exact eq_ok_of_fst (by decide +kernel)
  refine ⟨hvalid, hledger, rfl, ⟨by decide +kernel, by decide +kernel⟩, by decide +kernel, hyaml,
    (regen_eq_ok_iff hledger rfl).2 ⟨by rw [hvalid]; rfl, _, _, hjobs, hsaved⟩, ?_⟩
  rw [status, ledger_of_save hyaml hsaved]
  show Except.ok [(⟨_, _, _, selfProject.staleness selfLedger selfAfter selfJob⟩ : JobStatus)] = _
  rw [staleness_selfAfter hsaved]
  exact congrArg Except.ok (by decide +kernel)

end Project

end Stencil
