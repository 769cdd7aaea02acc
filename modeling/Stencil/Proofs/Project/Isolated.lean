import Stencil.Proofs.Disk.Earlier
import Stencil.Proofs.Project.Saved

/-!
# Jobs of a regeneration

The jobs of a regeneration share a ledger and a disk. A turn changes the record and the file of its
own job only, and neither unless it generates (`turn_cases`); the other jobs let the disk grow
elsewhere (`runJobs_turn_apart`). So a job that was generated did what it does alone on the files
as they were before all turns (`generated_alone`), and one that was not has left everything as it
was (`kept_alone`).
-/

namespace Stencil

open Disk Effect

/-! ## Records of the same files -/

namespace Ledger

variable {d d' : Disk} {ps : List Path} {template : Path} {schema : Option Path}

theorem fingerprints_congr (h : ∀ q ∈ ps, d'.read q = d.read q) :
    fingerprints d' ps = fingerprints d ps := by
  have hmapM : (ps.mapM fun p => do pure (p, ← d'.fingerprint p)) =
      (ps.mapM fun p => do pure (p, ← d.fingerprint p)) := by
    induction ps with
    | nil => rfl
    | cons p ps ih =>
      rw [List.mapM_cons, List.mapM_cons, ih fun q hq => h q (List.mem_cons_of_mem p hq),
        fingerprint, fingerprint, h p List.mem_cons_self]
  rw [fingerprints, fingerprints, hmapM]

/-- A record is made of what is read. -/
theorem recordOf_congr {backend : Backend} {lines : Nat} {now : Moment}
    (h : ∀ q ∈ template :: (ps ++ schema.toList), d'.read q = d.read q) :
    recordOf d' template ps schema backend lines now =
      recordOf d template ps schema backend lines now := by
  have htemplate : d'.fingerprint template = d.fingerprint template := by
    rw [fingerprint, fingerprint, h _ List.mem_cons_self]
  have hschema : schema.mapM d'.fingerprint = schema.mapM d.fingerprint := by
    cases schema with
    | none => rfl
    | some q =>
      have hread : d'.read q = d.read q :=
        h q (List.mem_cons_of_mem _ (List.mem_append_right _ (Option.mem_toList.2 rfl)))
      rw [Option.mapM_some, Option.mapM_some, fingerprint, fingerprint, hread]
  rw [recordOf, recordOf, htemplate, hschema,
    fingerprints_congr fun q hq => h q (List.mem_cons_of_mem _ (List.mem_append_left _ hq))]

/-- What a record is made of can be read. -/
theorem read_of_recordOf {backend : Backend} {lines : Nat} {now : Moment} {r : OutputRecord}
    (h : recordOf d template ps schema backend lines now = .ok r) :
    ∀ q ∈ template :: (ps ++ schema.toList), ∃ content, d.read q = .ok content := by
  obtain ⟨htemplate, hfragments, hschema⟩ := recordOf_eq_ok h
  have hdigest : ∀ q ∈ template :: (ps ++ schema.toList), ∃ x, d.fingerprint q = .ok x := by
    intro q hq
    rcases List.mem_cons.1 hq with rfl | hq
    · exact ⟨_, htemplate⟩
    · rcases List.mem_append.1 hq with hq | hq
      · exact (hfragments q hq).imp fun _ => And.left
      · exact (hschema q (Option.mem_toList.1 hq)).imp fun _ => And.left
  intro q hq
  obtain ⟨x, hx⟩ := hdigest q hq
  exact (fingerprint_eq_ok_iff.1 hx).imp fun _ => And.left

end Ledger

namespace Project

variable {p : Project} {S : Place → Prop} {tables : Provider} {force : Bool} {now : Moment}
  {l l' last : Ledger} {d d' done after : Disk} {j : MergedJob} {js : List MergedJob}
  {o : JobOutcome} {outcomes : List JobOutcome} {report : Report} {k : Nat}

/-! ## One job at a time -/

/-- The outcomes are those of the jobs, in their order. -/
theorem runJobs_outputs
    (h : p.runJobs tables force now l js d = (.ok (outcomes, last), d')) :
    outcomes.map (·.output) = js.map (·.request.output) := by
  induction js generalizing l d outcomes with
  | nil =>
    cases h
    rfl
  | cons j js ih =>
    obtain ⟨o, l₁, d₁, rest, rfl, hturn, hrest⟩ := runJobs_cons_cases h
    rw [List.map_cons, List.map_cons, ih hrest]
    congr 1
    obtain ⟨rfl, -⟩ | ⟨-, hjob⟩ := hturn
    · rfl
    · obtain ⟨_, rfl, -⟩ | ⟨_, _, rfl, -⟩ := runJob_cases hjob <;> rfl

/-- Records that are none of the jobs' are kept. -/
theorem runJobs_find? {key : String} (hkey : key ∉ js.map p.key)
    (h : p.runJobs tables force now l js d = (.ok (outcomes, last), d')) :
    last.outputs.find? key = l.outputs.find? key := by
  induction js generalizing l d outcomes with
  | nil =>
    cases h
    rfl
  | cons j js ih =>
    obtain ⟨hown, hothers⟩ := not_or.1 (fun hmem => hkey (List.mem_cons.2 hmem))
    obtain ⟨o, l₁, d₁, rest, rfl, hturn, hrest⟩ := runJobs_cons_cases h
    rw [ih hothers hrest]
    obtain ⟨-, rfl, -⟩ | ⟨-, hjob⟩ := hturn
    · rfl
    · obtain ⟨_, -, rfl, -⟩ | ⟨_, r, -, rfl, -⟩ := runJob_cases hjob
      · rfl
      · exact Dict.find?_insert.trans (if_neg hown)

/-- A turn leaves the ledger and the files as they are, or generates its job and notes that. -/
theorem turn_cases (h : p.runJobs tables force now l [j] d = (.ok ([o], l'), d')) :
    (o.isGenerated = false ∧ l' = l ∧ Grows Nowhere d d') ∨
      ∃ reason report r, o = .generated j.request.output reason report ∧
        l' = l.note p.outputDir j.request.output r ∧
        (j.workshop tables).generate j.request now d = (.ok report, d') ∧
        Ledger.recordOf d' j.templatePath (j.fragments report) j.schema j.backend
          report.linesWritten now = .ok r := by
  obtain ⟨o', l₁, d₁, rest, hcons, hturn, hnil⟩ := runJobs_cons_cases h
  obtain ⟨rfl, rfl⟩ := List.cons.inj hcons
  cases hnil
  obtain ⟨rfl, rfl, rfl, -⟩ | ⟨-, hjob⟩ := hturn
  · exact .inl ⟨rfl, rfl, .refl⟩
  · obtain ⟨cause, rfl, rfl, hfailed⟩ | ⟨report, r, rfl, rfl, hgenerate, hrecord⟩ :=
      runJob_cases hjob
    · exact .inl ⟨rfl, rfl, Workshop.generate_failed hfailed⟩
    · exact .inr ⟨_, report, r, rfl, rfl, hgenerate, hrecord⟩

/-- The places at which the other jobs of a project put files. -/
def otherPlaces (p : Project) (d : Disk) (j : MergedJob) (a : Place) : Prop :=
  p.outputPlaces d a ∧ a ≠ d.place j.request.output

/-- Where no two jobs share an output or a record, the jobs before a job and those after it let the
disk grow elsewhere, and leave its record. -/
theorem runJobs_turn_apart (hplaces : (p.jobs.map fun j => d.place j.request.output).Nodup)
    (hkeys : (p.jobs.map p.key).Nodup)
    (h : p.runJobs tables force now l p.jobs d = (.ok (outcomes, last), done))
    (hj : p.jobs[k]? = some j) (ho : outcomes[k]? = some o) :
    ∃ l₁ d₁ l₂ d₂, p.runJobs tables force now l₁ [j] d₁ = (.ok ([o], l₂), d₂) ∧
      Grows (p.otherPlaces d j) d d₁ ∧ Grows (p.otherPlaces d j) d₂ done ∧
      p.record? l₁ j = p.record? l j ∧ p.record? last j = p.record? l₂ j := by
  obtain ⟨l₁, d₁, hbefore, l₂, d₂, hone, hrest⟩ := runJobs_at h hj ho
  obtain ⟨hplace, hplace'⟩ := image_not_mem hplaces hj
  obtain ⟨hkey, hkey'⟩ := key_not_mem hkeys hj
  have hother : ∀ i ∈ p.jobs, d.place i.request.output ≠ d.place j.request.output →
      p.otherPlaces d j (d.place i.request.output) := fun i hi hne => ⟨⟨i, hi, rfl⟩, hne⟩
  have hearlier := runJobs_progress (fun i hi => hother i (List.mem_of_mem_take hi) fun heq =>
    hplace (List.mem_map.2 ⟨i, hi, heq⟩)) hbefore
  have hown := runJobs_progress (S := fun _ => True) (fun _ _ => trivial) hone
  have hsame : ∀ q, d₂.place q = d.place q := fun q =>
    (hown.grows.place q).trans (hearlier.grows.place q)
  have hlater := runJobs_progress (S := p.otherPlaces d j) (fun i hi => by
    rw [hsame]
    exact hother i (List.mem_of_mem_drop hi) fun heq =>
      hplace' (List.mem_map.2 ⟨i, hi, heq⟩)) hrest
  exact ⟨l₁, d₁, l₂, d₂, hone, hearlier.grows, hlater.grows, hearlier.record? j hkey,
    hlater.record? j hkey'⟩

/-- A job that was not generated has left its output and its record as they were. -/
theorem kept_alone (hplaces : (p.jobs.map fun j => d.place j.request.output).Nodup)
    (hkeys : (p.jobs.map p.key).Nodup)
    (h : p.runJobs tables force now l p.jobs d = (.ok (outcomes, last), done))
    (hj : p.jobs[k]? = some j) (ho : outcomes[k]? = some o) (hnot : o.isGenerated = false) :
    Grows (p.otherPlaces d j) d done ∧ p.record? last j = p.record? l j := by
  obtain ⟨l₁, d₁, l₂, d₂, hone, hearlier, hlater, hrecord, hrecord'⟩ :=
    runJobs_turn_apart hplaces hkeys h hj ho
  obtain ⟨-, rfl, hkept⟩ | ⟨_, _, _, rfl, -⟩ := turn_cases hone
  · exact ⟨hearlier.trans ((hkept.mono nofun).trans hlater), hrecord'.trans hrecord⟩
  · cases hnot

/-- What a run of a job has read does not hang on the other jobs: no output is a file of it, and the
paths of its templates go up out of directories only that were there before, or that are made for
its output. -/
structure Independent (p : Project) (d : Disk) (j : MergedJob) (report : Report) : Prop where
  sources : ∀ i ∈ p.jobs, ∀ q ∈ j.sources report, d.place i.request.output ≠ d.place q
  template : d.Anchored j.templatePath
  fragments : ∀ q ∈ j.fragments report, (prepareOutput j.request.output d).2.Anchored q

/-- A job has left what it leaves alone, which is the disk `alone` and the record `r`. -/
structure AsAlone (p : Project) (schema : Option Schema) (now : Moment) (d after : Disk)
    (last : Ledger) (j : MergedJob) (report : Report) (alone : Disk) (r : OutputRecord) : Prop where
  generates : (j.workshop (provider schema)).generate j.request now d = (.ok report, alone)
  output : ∃ lines, alone.read j.request.output = .ok (fileOfLines lines) ∧
    after.read j.request.output = .ok (fileOfLines lines)
  record : p.record? last j = some r
  template : alone.fingerprint j.templatePath = .ok r.templateDigest
  fragments : ∀ t, (j.workshop (provider schema)).Opens j.request now d t →
    ∃ x, alone.fingerprint (j.templateDir.join t) = .ok x ∧
      (j.templateDir.join t, x) ∈ r.fragments.entries
  schema : ∀ q ∈ j.schema, ∃ x, alone.fingerprint q = .ok x ∧ r.schemaDigest = some x

/-- Two disks on which the templates of a job are the same have the same sources of it, where both
have grown elsewhere: the schema is on them what it was. -/
theorem read_sources {schema : Option Schema} (hschema : p.schema d = .ok schema)
    (hmem : j ∈ p.jobs) (hsources : ∀ q ∈ j.sources report, ¬ S (d.place q))
    (hgrows : Grows S d d') (hgrows' : Grows S d after)
    (hsame : ∀ t, t = j.request.template ∨ t ∈ report.subTemplateNames →
      d'.read (j.templateDir.join t) = after.read (j.templateDir.join t)) :
    ∀ q ∈ j.sources report, d'.read q = after.read q := by
  intro q hq
  rcases List.mem_cons.1 hq with rfl | hq'
  · rw [templatePath_eq hmem]
    exact hsame _ (.inl rfl)
  rcases List.mem_append.1 hq' with hq' | hq'
  · obtain ⟨t, ht, rfl⟩ := List.mem_map.1 hq'
    exact hsame t (.inr ht)
  · obtain ⟨content, hcontent⟩ :=
      read_schema hschema (schema_eq_schemaPath hmem ▸ Option.mem_toList.1 hq')
    rw [hgrows.read_eq_ok (hsources q hq) hcontent, hgrows'.read_eq_ok (hsources q hq) hcontent]

/-- A job that was generated has left what it leaves alone. -/
theorem generated_alone {schema : Option Schema} {output : Path} {reason : Staleness}
    (hschema : p.schema d = .ok schema) (htree : d.IsTree)
    (hhere : d.find? d.here = some .directory)
    (hplaces : (p.jobs.map fun j => d.place j.request.output).Nodup)
    (hkeys : (p.jobs.map p.key).Nodup)
    (h : p.runJobs (provider schema) force now l p.jobs d = (.ok (outcomes, last), done))
    (hj : p.jobs[k]? = some j) (ho : outcomes[k]? = some (.generated output reason report))
    (hapart : p.Independent d j report) :
    ∃ alone r, p.AsAlone schema now d done last j report alone r := by
  obtain ⟨l₁, d₁, l₂, d₂, hone, hearlier, hlater, -, hrecord⟩ :=
    runJobs_turn_apart hplaces hkeys h hj ho
  obtain ⟨hnot, -⟩ | ⟨_, _, r, heq, rfl, hgenerate, hof⟩ := turn_cases hone
  · cases hnot
  cases heq
  have hmem : j ∈ p.jobs := List.mem_of_getElem? hj
  have hsources : ∀ q ∈ j.sources report, ¬ p.outputPlaces d (d.place q) := by
    rintro q hq ⟨i, hi, hplace⟩
    exact hapart.sources i hi q hq hplace
  have hgrows : Grows (p.outputPlaces d) d d₁ := hearlier.mono fun _ => And.left
  obtain ⟨lines, hwrites⟩ := Workshop.generate_eq_ok_iff.1 hgenerate
  have hturn : Grows (p.outputPlaces d) d d₂ :=
    hgrows.trans (hwrites.grows ⟨j, hmem, (hgrows.place _).symm⟩)
  have hread := Ledger.read_of_recordOf hof
  obtain ⟨alone, halone, hsame⟩ := hwrites.earlier hgrows hhere htree ⟨j, hmem, rfl⟩
    (fun t ht => ⟨hsources _ (mem_sources hmem ht), hread _ (mem_sources hmem ht)⟩)
    (templatePath_eq hmem ▸ hapart.template)
    (fun t ht => hapart.fragments _ (List.mem_map_of_mem ht))
  have hof' := (Ledger.recordOf_congr
    (read_sources hschema hmem hsources (halone.grows ⟨j, hmem, rfl⟩) hturn hsame)).trans hof
  obtain ⟨htemplate, hfragments, hdigest⟩ := Ledger.recordOf_eq_ok hof'
  have hdone : done.read j.request.output = .ok (fileOfLines lines) :=
    hlater.read_eq_ok (fun hother => hother.2 (hturn.place _)) hwrites.read
  exact ⟨alone, r, {
    generates := Workshop.generate_eq_ok_iff.2 ⟨lines, halone⟩
    output := ⟨lines, halone.read, hdone⟩
    record := hrecord.trans ((Ledger.find?_note ..).trans (if_pos rfl))
    template := htemplate
    fragments := fun t hopens => hfragments _ (List.mem_map_of_mem (halone.opens hopens))
    schema := hdigest }⟩

/-- **The jobs of a regeneration do not disturb each other.** Let the files be a tree with the
working directory in it, no two jobs share an output or a record, and no output be the file of the
ledger. There is one outcome a job, in the order of the jobs. A job that was skipped or failed has
left its output and its record as they were. A job that was generated, and whose files do not hang
on the other jobs, has left the lines that it writes alone on the files as they were before, at the
same moment, and a record with the digests of all that it read. Records of other outputs are kept.
The ledger with these records is the one that is saved. -/
theorem regen_isolates (p : Project) (force : Bool) (now : Moment) (l : Ledger)
    (schema : Option Schema) (d after : Disk) (outcomes : List JobOutcome)
    (hledger : p.ledger d = .ok l) (hschema : p.schema d = .ok schema)
    (hregen : p.regen force now d = (.ok outcomes, after)) (htree : d.IsTree)
    (hhere : d.find? d.here = some .directory)
    (hplaces : (p.jobs.map fun j => d.place j.request.output).Nodup)
    (hkeys : (p.jobs.map p.key).Nodup)
    (hown : ∀ j ∈ p.jobs, d.place j.request.output ≠ d.place p.ledgerPath) :
    outcomes.map (·.output) = p.jobs.map (·.request.output) ∧
      (∀ (k : Nat) j o, p.jobs[k]? = some j → outcomes[k]? = some o → o.isGenerated = false →
        after.contentAt (d.place j.request.output) = d.contentAt (d.place j.request.output) ∧
        p.record? (p.lastLedger schema force now l d) j = p.record? l j) ∧
      (∀ (k : Nat) j output reason report, p.jobs[k]? = some j →
        outcomes[k]? = some (.generated output reason report) → p.Independent d j report →
        ∃ alone r,
          p.AsAlone schema now d after (p.lastLedger schema force now l d) j report alone r) ∧
      (∀ key, key ∉ p.jobs.map p.key →
        (p.lastLedger schema force now l d).outputs.find? key = l.outputs.find? key) ∧
      after.read p.ledgerPath = .ok (Text.encode (p.lastLedger schema force now l d).text) ∧
      (Ledger.ofYaml (p.lastLedger schema force now l d).text =
          .ok (p.lastLedger schema force now l d) →
        p.ledger after = .ok (p.lastLedger schema force now l d)) := by
  obtain ⟨-, done, hjobs, hsaved⟩ := regen_last hledger hschema hregen
  have hdone : Grows (p.outputPlaces d) d done :=
    (runJobs_progress (fun i hi => ⟨i, hi, rfl⟩) hjobs).grows
  -- saving the ledger changes no output
  have hsave : ∀ j ∈ p.jobs, ¬ (d.place j.request.output = done.place p.ledgerPath) :=
    fun j hj => by
      rw [hdone.place]
      exact hown j hj
  have hlater := Ledger.save_grows hsaved
  refine ⟨runJobs_outputs hjobs, fun k j o hj ho hnot => ?_, fun k j output reason report hj ho
    hapart => ?_, fun key hkey => runJobs_find? hkey hjobs, Ledger.read_of_save hsaved,
    fun hyaml => ledger_of_save hyaml hsaved⟩
  · obtain ⟨hgrows, hrecord⟩ := kept_alone hplaces hkeys hjobs hj ho hnot
    refine ⟨?_, hrecord⟩
    rw [hlater.contentAt (hsave j (List.mem_of_getElem? hj)),
      hgrows.contentAt fun hother => hother.2 rfl]
  · obtain ⟨alone, r, halone⟩ :=
      generated_alone hschema htree hhere hplaces hkeys hjobs hj ho hapart
    obtain ⟨lines, hlines, hread⟩ := halone.output
    refine ⟨alone, r, { halone with output := ⟨lines, hlines, hlater.read_eq_ok ?_ hread⟩ }⟩
    rw [hdone.place]
    exact hsave j (List.mem_of_getElem? hj)

/-- The templates of a project of two jobs, of which the second one opens a template that is not
there, and its output of some time before. -/
def brokenDisk : Disk where
  entries :=
    [(["w"], .directory), (["w", "templates"], .directory), (["w", "generated"], .directory),
     (["w", "templates", "a.cbt"], .file (Text.encode "&INCLUDE|c.cbt|\n")),
     (["w", "templates", "b.cbt"], .file (Text.encode "       STOP RUN.\n&INCLUDE|d.cbt|\n")),
     (["w", "templates", "c.cbt"], .file stopRun), (["w", "generated", "B.cbl"], .file stopRun)]

/-- What is reported of the first job. -/
def includeReport : Report where
  linesRead := 2
  linesWritten := 1
  passes := 1
  subTemplates := 1
  subTemplateNames := ["c.cbt"]

/-- The outcomes of regenerating the project. -/
def brokenOutcomes : List JobOutcome :=
  [.generated "/w/generated/A.cbl" .neverGenerated includeReport,
   .failed "/w/generated/B.cbl" (.templateNotFound "d.cbt" .notFound)]

/-- One job leaves what it leaves alone, the other one what was there. -/
theorem brokenDisk_isolated :
    brokenDisk.IsTree ∧ (twoJobs.jobs.map fun j => brokenDisk.place j.request.output).Nodup ∧
      (twoJobs.jobs.map twoJobs.key).Nodup ∧
      (∀ j ∈ twoJobs.jobs,
        brokenDisk.place j.request.output ≠ brokenDisk.place twoJobs.ledgerPath) ∧
      twoJobs.Independent brokenDisk onlyJob includeReport ∧
      ∃ after last alone r, twoJobs.regen false ⟨0⟩ brokenDisk = (.ok brokenOutcomes, after) ∧
        twoJobs.AsAlone none ⟨0⟩ brokenDisk after last onlyJob includeReport alone r ∧
        after.contentAt ["w", "generated", "B.cbl"] = some stopRun := by
  have hledger : twoJobs.ledger brokenDisk = .ok {} := eq_ok_of_toOption (by decide +kernel)
  have hregen : twoJobs.regen false ⟨0⟩ brokenDisk =
      (.ok brokenOutcomes, (twoJobs.regen false ⟨0⟩ brokenDisk).2) := by
    refine eq_ok_of_fst ?_
    unfold regen
    rw [validate_twoJobs]
    show ((Work.query twoJobs.ledger >>= _) brokenDisk).1.toOption = _
    rw [Work.query_bind hledger]
    decide +kernel
  have htree : brokenDisk.IsTree := isTree_of_entries (by decide +kernel)
  have hplaces : (twoJobs.jobs.map fun j => brokenDisk.place j.request.output).Nodup := by
    decide +kernel
  have hkeys : (twoJobs.jobs.map twoJobs.key).Nodup := by decide +kernel
  have hown : ∀ j ∈ twoJobs.jobs,
      brokenDisk.place j.request.output ≠ brokenDisk.place twoJobs.ledgerPath := by decide +kernel
  have hapart : twoJobs.Independent brokenDisk onlyJob includeReport := by
    refine ⟨by decide +kernel, anchored_of_not_mem (by decide +kernel), fun q hq => ?_⟩
    obtain rfl : q = "/w/templates/c.cbt" := List.mem_singleton.1 hq
    exact anchored_of_not_mem (by decide +kernel)
  obtain ⟨-, hkept, halone, -⟩ := regen_isolates twoJobs false ⟨0⟩ {} none brokenDisk _ _ hledger
    rfl hregen htree rfl hplaces hkeys hown
  obtain ⟨alone, r, halone⟩ := halone 0 onlyJob _ _ _ rfl rfl hapart
  refine ⟨htree, hplaces, hkeys, hown, hapart, _, _, alone, r, hregen, halone, ?_⟩
  exact (hkept 1 _ _ rfl rfl rfl).1

/-! ## Jobs that meet

Two paths may name one file, and a path may go up out of a directory that another job has made.
-/

/-- A job of the project that follows. -/
def meetingJob (template output : String) : Job where
  template := template
  output := output
  insuranceLine := "BOP"
  processType := "RATE"

/-- A project of three jobs: two outputs are one file by different paths, and the third template
opens another one through a directory that is made for these outputs. -/
def meetingProject : Project where
  root := "/w"
  file :=
    { version := 1, name := "rating"
      defaults := { templateDir := "t", outputDir := "o" }
      jobs := [meetingJob "a" "x/../x/A", meetingJob "b" "x/A", meetingJob "c" "z"] }

/-- The first job. -/
def firstMeeting : MergedJob := meetingProject.file.merge "/w" (meetingJob "a" "x/../x/A")

/-- The last job. -/
def lastMeeting : MergedJob := meetingProject.file.merge "/w" (meetingJob "c" "z")

/-- The template that the last job opens. -/
def detour : String := "../o/x/../../t/a"

/-- The templates of the project. -/
def meetingDisk : Disk where
  entries :=
    [(["w"], .directory), (["w", "o"], .directory), (["w", "t"], .directory),
     (["w", "t", "a"], .file (Text.encode "A\n")), (["w", "t", "b"], .file (Text.encode "B\n")),
     (["w", "t", "c"], .file (Text.encode ("&INCLUDE|" ++ detour ++ "|\n")))]

/-- What is reported of a template with one line. -/
def lineReport : Report where
  linesRead := 1
  linesWritten := 1

/-- The outcomes of regenerating the project. -/
def meetingOutcomes : List JobOutcome :=
  [.generated "/w/o/x/../x/A" .neverGenerated lineReport,
   .generated "/w/o/x/A" .neverGenerated lineReport,
   .generated "/w/o/z" .neverGenerated
     { linesRead := 2, linesWritten := 1, passes := 1, subTemplates := 1
       subTemplateNames := [detour] }]

/-- The disk that the first job leaves alone. -/
def meetingAlone : Disk :=
  ((firstMeeting.workshop (provider none)).generate firstMeeting.request ⟨0⟩ meetingDisk).2

/-- The disk when the jobs have had their turns. -/
def meetingDone : Disk :=
  (meetingProject.runJobs (provider none) false ⟨0⟩ {} meetingProject.jobs meetingDisk).2

/-- The disk when the ledger was saved. -/
def meetingAfter : Disk :=
  ((meetingProject.lastLedger none false ⟨0⟩ {} meetingDisk).save meetingProject.outputDir
    meetingDone).2

theorem validate_meetingProject : meetingProject.file.validate = [] :=
  ProjectFile.validate_of_sorted (by decide) (by decide +kernel) (by decide +kernel)
    (by decide +kernel)

theorem ledger_meetingDisk : meetingProject.ledger meetingDisk = .ok {} :=
  eq_ok_of_toOption (by decide +kernel)

theorem runJobs_meetingDisk :
    meetingProject.runJobs (provider none) false ⟨0⟩ {} meetingProject.jobs meetingDisk =
      (.ok (meetingOutcomes, meetingProject.lastLedger none false ⟨0⟩ {} meetingDisk),
        meetingDone) := by
  rw [meetingDone]
  exact runJobs_last (by decide +kernel)

theorem save_meetingDone :
    (meetingProject.lastLedger none false ⟨0⟩ {} meetingDisk).save meetingProject.outputDir
      meetingDone = (.ok (), meetingAfter) := by
  rw [meetingAfter]
  exact eq_ok_of_fst (by decide +kernel)

theorem generate_meetingDisk :
    (firstMeeting.workshop (provider none)).generate firstMeeting.request ⟨0⟩ meetingDisk =
      (.ok lineReport, meetingAlone) := by
  rw [meetingAlone]
  exact eq_ok_of_fst (by decide +kernel)

theorem read_meetingAfter :
    meetingAfter.read firstMeeting.request.output = .ok (fileOfLines ["B"]) :=
  eq_ok_of_toOption (by decide +kernel)

/-- The output of the first job has the lines of the second one, and the last one was generated
although alone it fails. -/
theorem meetingDisk_disturbed :
    meetingProject.file.validate = [] ∧ meetingProject.ledger meetingDisk = .ok {} ∧
      meetingProject.schema meetingDisk = .ok none ∧ meetingDisk.IsTree ∧
      (meetingProject.jobs.map (·.request.output)).Nodup ∧
      (meetingProject.jobs.map meetingProject.key).Nodup ∧
      (∀ i ∈ meetingProject.jobs,
        meetingDisk.place i.request.output ≠ meetingDisk.place meetingProject.ledgerPath ∧
        meetingDisk.place i.request.output ≠
          meetingDisk.place (meetingProject.root.join projectFileName) ∧
        ∀ j ∈ meetingProject.jobs, ∀ t ∈ [j.request.template, detour],
          meetingDisk.place i.request.output ≠ meetingDisk.place (j.templateDir.join t)) ∧
      meetingProject.regen false ⟨0⟩ meetingDisk = (.ok meetingOutcomes, meetingAfter) ∧
      (meetingProject.jobs[0]? = some firstMeeting ∧
        (firstMeeting.workshop (provider none)).generate firstMeeting.request ⟨0⟩ meetingDisk =
          (.ok lineReport, meetingAlone) ∧
        meetingAlone.read firstMeeting.request.output = .ok (fileOfLines ["A"]) ∧
        meetingAfter.read firstMeeting.request.output = .ok (fileOfLines ["B"])) ∧
      meetingProject.jobs[2]? = some lastMeeting ∧ ∃ err,
        ((lastMeeting.workshop (provider none)).generate lastMeeting.request ⟨0⟩ meetingDisk).1 =
          .error err := by
  refine ⟨validate_meetingProject, ledger_meetingDisk, rfl, isTree_of_entries (by decide +kernel),
    by decide +kernel, by decide +kernel, by decide +kernel,
    (regen_eq_ok_iff ledger_meetingDisk rfl).2
      ⟨by rw [validate_meetingProject]; rfl, _, _, runJobs_meetingDisk, save_meetingDone⟩,
    ⟨rfl, generate_meetingDisk, eq_ok_of_toOption (by decide +kernel), read_meetingAfter⟩, rfl,
    exists_error_of_toOption (by decide +kernel)⟩

end Project

end Stencil
