import Stencil.Proofs.Dict
import Stencil.Proofs.Disk.Output
import Stencil.Proofs.Project.Regen

/-!
# Fresh outputs

A record holds the digests of all files that a run has read: its template, the sub-templates that it
opened and its schema (`Ledger.recordOf_eq_ok`). Where a job is fresh, these files have the recorded
digests, so that they are what they were as long as no two contents share a digest, and the run into
the output can be repeated (`Project.fresh_repeats`).
-/

namespace Stencil

/-! ## Records -/

namespace Ledger

open Effect

variable {d : Disk} {ps : List Path} {q : Path}

/-- The digests of files are taken one by one. -/
theorem mapM_fingerprint {es : List (Path × String)}
    (h : (ps.mapM fun p => do pure (p, ← d.fingerprint p)) = .ok es) :
    es.map (·.1) = ps ∧ ∀ e ∈ es, d.fingerprint e.1 = .ok e.2 := by
  induction ps generalizing es with
  | nil =>
    cases h
    exact ⟨rfl, nofun⟩
  | cons p ps ih =>
    rw [List.mapM_cons] at h
    obtain ⟨e, he, h⟩ := except_bind_eq_ok_iff.1 h
    obtain ⟨x, hx, he⟩ := except_bind_eq_ok_iff.1 he
    obtain ⟨rest, hrest, h⟩ := except_bind_eq_ok_iff.1 h
    cases he
    cases h
    obtain ⟨hpaths, hdigests⟩ := ih hrest
    exact ⟨by rw [List.map_cons, hpaths], List.forall_mem_cons.2 ⟨hx, hdigests⟩⟩

/-- Each of the files has its digest in the dictionary, -/
theorem mem_fingerprints {dict : Dict String} (h : fingerprints d ps = .ok dict) (hq : q ∈ ps) :
    ∃ x, d.fingerprint q = .ok x ∧ (q, x) ∈ dict.entries := by
  obtain ⟨es, hes, hdict⟩ := except_bind_eq_ok_iff.1 h
  cases hdict
  obtain ⟨rfl, hdigests⟩ := mapM_fingerprint hes
  obtain ⟨⟨_, x⟩, hmem, rfl⟩ := List.mem_map.1 hq
  have hdigest := hdigests _ hmem
  refine ⟨x, hdigest, Dict.mem_entries_of_find? (Dict.find?_ofList hmem fun e he hkey => ?_)⟩
  have hother := hdigests e he
  rw [hkey, hdigest] at hother
  exact (Except.ok.inj hother).symm

/-- and no other file has one there. -/
theorem of_mem_fingerprints {dict : Dict String} (h : fingerprints d ps = .ok dict) :
    ∀ e ∈ dict.entries, e.1 ∈ ps ∧ d.fingerprint e.1 = .ok e.2 := by
  obtain ⟨es, hes, hdict⟩ := except_bind_eq_ok_iff.1 h
  cases hdict
  obtain ⟨rfl, hdigests⟩ := mapM_fingerprint hes
  intro e he
  have hmem := Dict.mem_of_mem_ofList he
  exact ⟨List.mem_map_of_mem hmem, hdigests e hmem⟩

/-- What a record notes: the digests of the template, of the sub-templates and of the schema. -/
theorem recordOf_eq_ok {template : Path} {schema : Option Path} {backend : Backend} {lines : Nat}
    {now : Moment} {r : OutputRecord}
    (h : recordOf d template ps schema backend lines now = .ok r) :
    d.fingerprint template = .ok r.templateDigest ∧
      (∀ q ∈ ps, ∃ x, d.fingerprint q = .ok x ∧ (q, x) ∈ r.fragments.entries) ∧
      ∀ q ∈ schema, ∃ x, d.fingerprint q = .ok x ∧ r.schemaDigest = some x := by
  obtain ⟨fragments, hfragments, h⟩ := except_bind_eq_ok_iff.1 h
  obtain ⟨templateDigest, htemplate, h⟩ := except_bind_eq_ok_iff.1 h
  obtain ⟨schemaDigest, hschema, h⟩ := except_bind_eq_ok_iff.1 h
  cases h
  refine ⟨htemplate, fun q hq => mem_fingerprints hfragments hq, fun q hq => ?_⟩
  obtain rfl : schema = some q := hq
  obtain ⟨x, hx, hsome⟩ := except_bind_eq_ok_iff.1 hschema
  cases hsome
  exact ⟨x, hx, rfl⟩

end Ledger

namespace Disk

variable {d d' : Disk} {q : Path} {x : String}

theorem fingerprint_eq_ok_iff : d.fingerprint q = .ok x ↔
    ∃ content, d.read q = .ok content ∧ Digest.fingerprint content = x := by
  unfold fingerprint
  cases d.read q with
  | error cause => exact ⟨nofun, nofun⟩
  | ok content =>
    show Except.ok _ = .ok x ↔ _
    simp

theorem fingerprint?_eq_some_iff : d.fingerprint? q = some x ↔ d.fingerprint q = .ok x := by
  unfold fingerprint?
  cases d.fingerprint q with
  | error cause => exact ⟨nofun, nofun⟩
  | ok y =>
    show some y = some x ↔ _
    simp

end Disk

/-- The files that a run of a job has read. -/
def MergedJob.sources (j : MergedJob) (report : Report) : List Path :=
  j.templatePath :: (j.fragments report ++ j.schema.toList)

namespace Project

open Disk Effect

variable {p : Project} {l l' : Ledger} {d d' : Disk} {j : MergedJob} {report : Report}

theorem templatePath_eq (hj : j ∈ p.jobs) :
    j.templatePath = j.templateDir.join j.request.template := by
  obtain ⟨job, -, rfl⟩ := List.mem_map.1 hj
  rfl

/-- What a run has read are the template and the sub-templates that it opened, among others. -/
theorem mem_sources (hj : j ∈ p.jobs) {t : String}
    (ht : t = j.request.template ∨ t ∈ report.subTemplateNames) :
    j.templateDir.join t ∈ j.sources report := by
  rcases ht with rfl | ht
  · rw [← templatePath_eq hj]
    exact List.mem_cons_self
  · exact List.mem_cons_of_mem _ (List.mem_append_left _ (List.mem_map_of_mem ht))

/-- A job is fresh when it has a record of this version, its output is there, and its files have the
digests of the record. -/
theorem staleness_eq_fresh_iff :
    p.staleness l d j = .fresh ↔ ∃ r, p.record? l j = some r ∧
      d.exists? j.request.output = true ∧ l.toolVersion = release ∧
      Ledger.sameSources d r j.templatePath = true ∧
      j.schema.bind d.fingerprint? = r.schemaDigest := by
  rw [staleness_eq]
  cases p.record? l j with
  | none => simp
  | some r =>
    unfold Ledger.verdict
    simp only [Option.some.injEq, exists_eq_left']
    split
    · next hmissing => simp [hmissing]
    · next hthere =>
      split
      · next hversion => simp [hversion]
      · next hversion =>
        have hthere : d.exists? j.request.output = true := by simpa using hthere
        have hversion : l.toolVersion = release := by simpa using hversion
        split
        · next hchanged => simp [hchanged]
        · next hsame => simp [hthere, hversion, hsame]

/-- The files of a fresh job have the digests that they had when its record was made. -/
theorem digests_of_fresh {r : OutputRecord} {lines : Nat} {now : Moment}
    (hrecord : Ledger.recordOf d j.templatePath (j.fragments report) j.schema j.backend lines now =
      .ok r)
    (hfind : p.record? l' j = some r) (hfresh : p.staleness l' d' j = .fresh) :
    ∀ q ∈ j.sources report, ∃ x, d.fingerprint q = .ok x ∧ d'.fingerprint q = .ok x := by
  obtain ⟨htemplate, hfragments, hschema⟩ := Ledger.recordOf_eq_ok hrecord
  obtain ⟨r', hfind', -, -, hsources, hdigest⟩ := staleness_eq_fresh_iff.1 hfresh
  obtain rfl : r' = r := Option.some.inj (hfind'.symm.trans hfind)
  simp only [Ledger.sameSources, Ledger.sameFragments, Bool.and_eq_true, beq_iff_eq,
    List.all_eq_true] at hsources
  intro q hq
  rcases List.mem_cons.1 hq with rfl | hq
  · exact ⟨_, htemplate, fingerprint?_eq_some_iff.1 hsources.1⟩
  · rcases List.mem_append.1 hq with hq | hq
    · obtain ⟨x, hx, hmem⟩ := hfragments q hq
      have hsame := hsources.2 (q, x) hmem
      exact ⟨x, hx, fingerprint?_eq_some_iff.1 hsame⟩
    · have hq : j.schema = some q := Option.mem_toList.1 hq
      obtain ⟨x, hx, hsome⟩ := hschema q hq
      rw [hq, hsome, Option.bind_some] at hdigest
      exact ⟨x, hx, fingerprint?_eq_some_iff.1 hdigest⟩

/-! ## Regenerations -/

/-- The disk when the first `k` jobs of a regeneration have had their turns. -/
def turnDisk (p : Project) (schema : Option Schema) (force : Bool) (now : Moment) (l : Ledger)
    (d : Disk) (k : Nat) : Disk :=
  (p.runJobs (provider schema) force now l (p.jobs.take k) d).2

/-- The ledger that a regeneration comes to. -/
def lastLedger (p : Project) (schema : Option Schema) (force : Bool) (now : Moment) (l : Ledger)
    (d : Disk) : Ledger :=
  match (p.runJobs (provider schema) force now l p.jobs d).1 with
  | .ok (_, last) => last
  | .error _ => l

section

variable {force : Bool} {now : Moment} {schema : Option Schema} {after : Disk}
  {outcomes : List JobOutcome} {k : Nat}

/-- Jobs that come to their outcomes come to the last ledger. -/
theorem runJobs_last
    (h : (p.runJobs (provider schema) force now l p.jobs d).1.toOption.map (·.1) =
      some outcomes) :
    p.runJobs (provider schema) force now l p.jobs d =
      (.ok (outcomes, p.lastLedger schema force now l d),
        (p.runJobs (provider schema) force now l p.jobs d).2) := by
  obtain ⟨⟨_, last⟩, hjobs, rfl⟩ := Option.map_eq_some_iff.1 h
  have hlast : p.lastLedger schema force now l d = last := by
    rw [lastLedger, eq_ok_of_toOption hjobs]
  rw [hlast]
  exact eq_ok_of_fst hjobs

/-- A regeneration that comes to its outcomes has run its jobs up to the last ledger, and saved
that. -/
theorem regen_last (hledger : p.ledger d = .ok l) (hschema : p.schema d = .ok schema)
    (hregen : p.regen force now d = (.ok outcomes, after)) :
    p.file.validate.isEmpty = true ∧ ∃ done,
      p.runJobs (provider schema) force now l p.jobs d =
        (.ok (outcomes, p.lastLedger schema force now l d), done) ∧
      (p.lastLedger schema force now l d).save p.outputDir done = (.ok (), after) := by
  obtain ⟨hvalid, last, done, hjobs, hsaved⟩ := (regen_eq_ok_iff hledger hschema).1 hregen
  have hlast : p.lastLedger schema force now l d = last := by rw [lastLedger, hjobs]
  rw [hlast]
  exact ⟨hvalid, done, hjobs, hsaved⟩

/-- The turn of a job leads from the disk of its number to the next one, and the others have their
turns on that. -/
theorem regen_at {o : JobOutcome} (hledger : p.ledger d = .ok l) (hschema : p.schema d = .ok schema)
    (hregen : p.regen force now d = (.ok outcomes, after)) (hj : p.jobs[k]? = some j)
    (ho : outcomes[k]? = some o) :
    ∃ l₁ l₂ last, p.runJobs (provider schema) force now l (p.jobs.take k) d =
        (.ok (outcomes.take k, l₁), p.turnDisk schema force now l d k) ∧
      p.runJobs (provider schema) force now l₁ [j] (p.turnDisk schema force now l d k) =
        (.ok ([o], l₂), p.turnDisk schema force now l d (k + 1)) ∧
      p.runJobs (provider schema) force now l₂ (p.jobs.drop (k + 1))
        (p.turnDisk schema force now l d (k + 1)) =
          (.ok (outcomes.drop (k + 1), p.lastLedger schema force now l d), last) := by
  obtain ⟨-, last, hjobs, -⟩ := regen_last hledger hschema hregen
  obtain ⟨l₁, d₁, hbefore, l₂, d₂, hone, hrest⟩ := runJobs_at hjobs hj ho
  have hd₁ : p.turnDisk schema force now l d k = d₁ := by rw [turnDisk, hbefore]
  have hd₂ : p.turnDisk schema force now l d (k + 1) = d₂ := by
    obtain ⟨hk, rfl⟩ := List.getElem?_eq_some_iff.1 hj
    rw [turnDisk, ← List.take_append_getElem hk, runJobs_append, bind_eq, hbefore]
    dsimp only
    rw [bind_eq, hone]
    rfl
  rw [hd₁, hd₂]
  exact ⟨l₁, l₂, last, hbefore, hone, hrest⟩

/-- A job that a regeneration generates is run at its turn, and noted with the digests of its files
after that; the record is in the last ledger when no other job has its key. -/
theorem regen_generated {output : Path} {reason : Staleness} (hledger : p.ledger d = .ok l)
    (hschema : p.schema d = .ok schema) (hregen : p.regen force now d = (.ok outcomes, after))
    (hkeys : (p.jobs.map p.key).Nodup) (hj : p.jobs[k]? = some j)
    (ho : outcomes[k]? = some (.generated output reason report)) :
    Disk.Grows (p.outputPlaces d) d (p.turnDisk schema force now l d k) ∧
      (j.workshop (provider schema)).generate j.request now (p.turnDisk schema force now l d k) =
        (.ok report, p.turnDisk schema force now l d (k + 1)) ∧
      ∃ r, Ledger.recordOf (p.turnDisk schema force now l d (k + 1)) j.templatePath
          (j.fragments report) j.schema j.backend report.linesWritten now = .ok r ∧
        p.record? (p.lastLedger schema force now l d) j = some r := by
  obtain ⟨l₁, l₂, last, hbefore, hone, hrest⟩ := regen_at hledger hschema hregen hj ho
  have hgrows := (runJobs_progress (S := p.outputPlaces d)
    (fun i hi => ⟨i, List.mem_of_mem_take hi, rfl⟩) hbefore).grows
  have hkept := (runJobs_progress (S := fun _ => True) (fun _ _ => trivial) hrest).record? j
    (key_not_mem hkeys hj).2
  obtain ⟨o, l₃, d₃, rest, hcons, hturn, hnil⟩ := runJobs_cons_cases hone
  obtain ⟨rfl, rfl⟩ := List.cons.inj hcons
  cases hnil
  obtain ⟨hskipped, -⟩ | ⟨-, hjob⟩ := hturn
  · cases hskipped
  obtain ⟨_, hfailed, -⟩ | ⟨_, r, hgenerated, rfl, hgenerate, hrecord⟩ := runJob_cases hjob
  · cases hfailed
  cases hgenerated
  refine ⟨hgrows, hgenerate, r, hrecord, ?_⟩
  rw [hkept]
  exact (Ledger.find?_note ..).trans (if_pos rfl)

end

/-- **Freshness is sound.** Let a regeneration have generated a job and recorded it, where no two
jobs share a record and no output is a file that the job read. Whatever has happened to the files
since: when the job is fresh by this record, its output is still a file, and no two different
contents of the files that it read share a digest, the run that was recorded can be repeated, and
writes the same lines. Every template that it opened is in the record. -/
theorem fresh_repeats (p : Project) (force : Bool) (now : Moment) (l l' : Ledger)
    (schema : Option Schema) (d d' after : Disk) (outcomes : List JobOutcome) (k : Nat)
    (j : MergedJob) (output : Path) (reason : Staleness) (report : Report)
    (hledger : p.ledger d = .ok l) (hschema : p.schema d = .ok schema)
    (hregen : p.regen force now d = (.ok outcomes, after))
    (hkeys : (p.jobs.map p.key).Nodup) (hj : p.jobs[k]? = some j)
    (ho : outcomes[k]? = some (.generated output reason report))
    (hapart : ∀ i ∈ p.jobs, ∀ q ∈ j.sources report, d.place i.request.output ≠ d.place q)
    (hrecord : p.record? l' j = p.record? (p.lastLedger schema force now l d) j)
    (hdigest : ∀ q ∈ j.sources report, ∀ content content',
      (p.turnDisk schema force now l d (k + 1)).read q = .ok content → d'.read q = .ok content' →
      Digest.fingerprint content = Digest.fingerprint content' → content = content')
    (hfile : d'.isDirectory j.request.output = false)
    (hfresh : p.staleness l' d' j = .fresh) :
    p.schema d' = .ok schema ∧
      (∃ lines last,
        (j.workshop (provider schema)).Writes j.request now (p.turnDisk schema force now l d k)
          report lines (p.turnDisk schema force now l d (k + 1)) ∧
        (j.workshop (provider schema)).Writes j.request now d' report lines last) ∧
      ∀ t,
        (j.workshop (provider schema)).Opens j.request now (p.turnDisk schema force now l d k) t →
        ∃ r x, p.record? l' j = some r ∧ (j.templateDir.join t, x) ∈ r.fragments.entries := by
  obtain ⟨hgrows, hgenerate, r, hof, hlast⟩ :=
    regen_generated hledger hschema hregen hkeys hj ho
  obtain ⟨lines, hwrites⟩ := Workshop.generate_eq_ok_iff.1 hgenerate
  have hmem : j ∈ p.jobs := List.mem_of_getElem? hj
  have hfind : p.record? l' j = some r := hrecord.trans hlast
  have hapart' : ∀ q ∈ j.sources report, ¬ p.outputPlaces d (d.place q) := by
    rintro q hq ⟨i, hi, hplace⟩
    exact hapart i hi q hq hplace
  have hturn : Disk.Grows (p.outputPlaces d) d (p.turnDisk schema force now l d (k + 1)) := by
    have hown := (j.workshop (provider schema)).generate_grows (S := p.outputPlaces d) j.request now
      (d := p.turnDisk schema force now l d k) ⟨j, hmem, (hgrows.place _).symm⟩
    rw [hgenerate] at hown
    exact hgrows.trans hown
  -- what the job read is on both disks
  have hsame : ∀ q ∈ j.sources report, ∃ content,
      (p.turnDisk schema force now l d (k + 1)).read q = .ok content ∧
        d'.read q = .ok content := by
    intro q hq
    obtain ⟨x, hx, hx'⟩ := digests_of_fresh hof hfind hfresh q hq
    obtain ⟨content, hread, hcontent⟩ := fingerprint_eq_ok_iff.1 hx
    obtain ⟨content', hread', hcontent'⟩ := fingerprint_eq_ok_iff.1 hx'
    obtain rfl := hdigest q hq content content' hread hread' (hcontent.trans hcontent'.symm)
    exact ⟨content, hread, hread'⟩
  obtain ⟨r', hr', hexists, -⟩ := staleness_eq_fresh_iff.1 hfresh
  refine ⟨schema_eq_ok hschema fun q hq content hread => ?_, ?_, fun t hopens => ?_⟩
  · rw [← schema_eq_schemaPath hmem] at hq
    have hq : q ∈ j.sources report :=
      List.mem_cons_of_mem _ (List.mem_append_right _ (Option.mem_toList.2 hq))
    obtain ⟨content', hlater, hread'⟩ := hsame q hq
    rw [hread', Except.ok.inj (hlater.symm.trans (hturn.read_eq_ok (hapart' q hq) hread))]
  · obtain ⟨last, hagain⟩ := hwrites.again (fun t ht =>
      ⟨fun hplace => hapart j hmem _ (mem_sources hmem ht) (by rwa [hgrows.place, hgrows.place,
        eq_comm] at hplace), hsame _ (mem_sources hmem ht)⟩) hexists hfile
    exact ⟨lines, last, hwrites, hagain⟩
  · obtain ⟨-, hfragments, -⟩ := Ledger.recordOf_eq_ok hof
    obtain ⟨x, -, hx⟩ := hfragments _ (List.mem_map_of_mem (hwrites.opens hopens))
    exact ⟨r, x, hfind, hx⟩

/-- A project of one job, whose template opens another one. -/
def oneJob : Project where
  root := "/w"
  file :=
    { version := 1, name := "rating", defaults := {}
      jobs :=
        [{ template := "a.cbt", output := "A.cbl", insuranceLine := "BOP"
           processType := "RATE" }] }

/-- The templates of the project. -/
def freshDisk : Disk where
  entries :=
    [(["w"], .directory), (["w", "templates"], .directory),
     (["w", "templates", "a.cbt"], .file (Text.encode "&INCLUDE|b.cbt|\n       STOP RUN.\n")),
     (["w", "templates", "b.cbt"], .file (Text.encode "      * &LOB|\n"))]

/-- The job of the project. -/
def onlyJob : MergedJob :=
  oneJob.file.merge "/w"
    { template := "a.cbt", output := "A.cbl", insuranceLine := "BOP", processType := "RATE" }

/-- What is reported of the job. -/
def onlyReport : Report where
  linesRead := 3
  linesWritten := 2
  passes := 2
  subTemplates := 1
  subTemplateNames := ["b.cbt"]

/-- The ledger of the project once its job has been generated. -/
def onlyLedger : Ledger where
  outputs := .ofList
    [("A.cbl",
      { template := "/w/templates/a.cbt"
        templateDigest := "cd9f274d6406295d3d24435096fd8259ba3e415f9c93026fd246a78b55a1c2d6"
        fragments := .ofList
          [("/w/templates/b.cbt",
            "a4b916e8729404314bbd26da93c1da75f4b5e1f4a52d6a05b29d4454a98dc601")]
        backend := .cobol
        lines := 2
        generatedAt := ⟨0⟩ })]

/-- The files some time later: the output is there, and another file has come. -/
def editedDisk : Disk where
  entries :=
    (["w", "notes"], .file []) :: (["w", "generated"], .directory) ::
      (["w", "generated", "A.cbl"], .file (Text.encode "      * BOP\n       STOP RUN.\n")) ::
      freshDisk.entries

theorem ledger_freshDisk : oneJob.ledger freshDisk = .ok {} :=
  eq_ok_of_toOption (by decide +kernel)

theorem validate_oneJob : oneJob.file.validate = [] :=
  ProjectFile.validate_of_sorted (by decide) (by decide +kernel) (by decide +kernel)
    (by decide +kernel)

theorem regen_freshDisk : oneJob.regen false ⟨0⟩ freshDisk =
    (.ok [.generated "/w/generated/A.cbl" .neverGenerated onlyReport],
      (oneJob.regen false ⟨0⟩ freshDisk).2) := by
  refine eq_ok_of_fst ?_
  unfold regen
  rw [validate_oneJob]
  show ((Work.query oneJob.ledger >>= _) freshDisk).1.toOption = _
  rw [Work.query_bind ledger_freshDisk]
  decide +kernel

theorem lastLedger_freshDisk : oneJob.lastLedger none false ⟨0⟩ {} freshDisk = onlyLedger := by
  decide +kernel

theorem staleness_editedDisk : oneJob.staleness onlyLedger editedDisk onlyJob = .fresh := by
  decide +kernel

theorem read_editedDisk : ∀ q ∈ onlyJob.sources onlyReport,
    ((oneJob.turnDisk none false ⟨0⟩ {} freshDisk 1).read q).toOption =
      (editedDisk.read q).toOption := by
  decide +kernel

/-- By the ledger that was left the job is fresh, and it can be run again with what it wrote. -/
theorem fresh_repeats_edited :
    oneJob.record? onlyLedger onlyJob =
        oneJob.record? (oneJob.lastLedger none false ⟨0⟩ {} freshDisk) onlyJob ∧
      oneJob.staleness onlyLedger editedDisk onlyJob = .fresh ∧
      ∃ lines last,
        (onlyJob.workshop (provider none)).Writes onlyJob.request ⟨0⟩
          (oneJob.turnDisk none false ⟨0⟩ {} freshDisk 0) onlyReport lines
          (oneJob.turnDisk none false ⟨0⟩ {} freshDisk 1) ∧
        (onlyJob.workshop (provider none)).Writes onlyJob.request ⟨0⟩ editedDisk onlyReport lines
          last := by
  have hrecord : oneJob.record? onlyLedger onlyJob =
      oneJob.record? (oneJob.lastLedger none false ⟨0⟩ {} freshDisk) onlyJob := by
    rw [lastLedger_freshDisk]
  have hkeys : (oneJob.jobs.map oneJob.key).Nodup := by decide +kernel
  have hapart : ∀ i ∈ oneJob.jobs, ∀ q ∈ onlyJob.sources onlyReport,
      freshDisk.place i.request.output ≠ freshDisk.place q := by decide +kernel
  have hfile : editedDisk.isDirectory onlyJob.request.output = false := by decide +kernel
  have hdigest : ∀ q ∈ onlyJob.sources onlyReport, ∀ content content',
      (oneJob.turnDisk none false ⟨0⟩ {} freshDisk 1).read q = .ok content →
      editedDisk.read q = .ok content' →
      Digest.fingerprint content = Digest.fingerprint content' → content = content' := by
    intro q hq content content' hread hread' _
    have hsame := read_editedDisk q hq
    rw [hread, hread'] at hsame
    exact Option.some.inj hsame
  exact ⟨hrecord, staleness_editedDisk,
    (fresh_repeats oneJob false ⟨0⟩ {} onlyLedger none freshDisk editedDisk
      (oneJob.regen false ⟨0⟩ freshDisk).2
      [.generated "/w/generated/A.cbl" .neverGenerated onlyReport] 0 onlyJob
      "/w/generated/A.cbl" .neverGenerated onlyReport ledger_freshDisk rfl regen_freshDisk hkeys
      rfl rfl hapart hrecord hdigest hfile staleness_editedDisk).2.1⟩

end Project

end Stencil
