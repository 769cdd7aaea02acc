import Stencil.Proofs.Disk.Output
import Stencil.Proofs.Project.Outputs
import Stencil.Proofs.Text.Utf8
import Stencil.Project.Regen

/-!
# Status and regeneration

`Project.status` judges all jobs before anything is done, `Project.regen` judges every job when its
turn comes, with the ledger and the disk that the jobs before it have left. `Turn` is what one turn
does, and `runJobs_progress` what many do: they note records under their own keys, set the version
of the ledger once something was generated, and let the disk grow. Two judgements of a job
therefore differ for three reasons only (`staleness_eq_iff`), and regeneration does what the status
announced wherever none of them applies.
-/

namespace Stencil

/-! ## Judging an output -/

namespace Ledger

/-- The template and the sub-templates of a record are what they were. -/
def sameSources (d : Disk) (r : OutputRecord) (template : Path) : Bool :=
  d.fingerprint? template == some r.templateDigest && sameFragments d r

/-- How a record stands to the files that an output is generated from. -/
def verdict (d : Disk) (r : OutputRecord) (template : Path) (schema : Option Path) : Staleness :=
  if sameSources d r template = false then .templateChanged
  else if schema.bind d.fingerprint? ≠ r.schemaDigest then .schemaChanged
  else .fresh

/-- The files of a record decide when there is one, the output is there and the version is this
one. -/
theorem staleness_eq (l : Ledger) (d : Disk) (dir output template : Path) (schema : Option Path) :
    l.staleness d dir output template schema =
      match l.find? dir output with
      | none => .neverGenerated
      | some r =>
        if d.exists? output = false then .outputMissing
        else if l.toolVersion ≠ release then .toolUpgraded
        else verdict d r template schema := by
  unfold staleness verdict sameSources
  cases l.find? dir output with
  | none => rfl
  | some r =>
    cases htemplate : d.fingerprint? template == some r.templateDigest <;>
      simp [bne, htemplate]

theorem verdict_ne (d : Disk) (r : OutputRecord) (template : Path) (schema : Option Path) :
    verdict d r template schema ≠ .toolUpgraded ∧ verdict d r template schema ≠ .outputMissing := by
  unfold verdict
  split
  · exact ⟨nofun, nofun⟩
  · split <;> exact ⟨nofun, nofun⟩

section

variable {d d' : Disk} {r : OutputRecord} {template : Path} {schema : Option Path}

/-- Sources that are what they were stay so while the files that were found stay as they are. -/
theorem sameSources_mono
    (htemplate : ∀ x, d.fingerprint? template = some x → d'.fingerprint? template = some x)
    (hfragments : ∀ e ∈ r.fragments.entries, ∀ x,
      d.fingerprint? e.1 = some x → d'.fingerprint? e.1 = some x)
    (h : sameSources d r template = true) : sameSources d' r template = true := by
  simp only [sameSources, sameFragments, Bool.and_eq_true, beq_iff_eq, List.all_eq_true] at h ⊢
  exact ⟨htemplate _ h.1, fun e he => hfragments e he _ (h.2 e he)⟩

theorem verdict_eq_templateChanged_iff :
    verdict d r template schema = .templateChanged ↔ sameSources d r template = false := by
  unfold verdict
  split
  · next h => simp [h]
  · next h => split <;> simpa using h

/-- So the verdict changes only for sources that come to be what they were. -/
theorem verdict_eq_iff (hschema : schema.bind d'.fingerprint? = schema.bind d.fingerprint?)
    (hsources : sameSources d r template = true → sameSources d' r template = true) :
    verdict d' r template schema = verdict d r template schema ↔
      ¬ (verdict d r template schema = .templateChanged ∧ sameSources d' r template = true) := by
  unfold verdict
  rw [hschema]
  cases hd : sameSources d r template with
  | true =>
    rw [hsources hd]
    by_cases hdigest : schema.bind d.fingerprint? = r.schemaDigest <;> simp [hdigest]
  | false =>
    cases sameSources d' r template with
    | false => simp
    | true => by_cases hdigest : schema.bind d.fingerprint? = r.schemaDigest <;> simp [hdigest]

end

/-- Where the file of a ledger has a text, the ledger is the one that the text says. -/
theorem load_of_read {d : Disk} {dir : Path} {text : String}
    (h : d.read (dir.join ledgerFileName) = .ok (Text.encode text)) :
    load d dir = (ofYaml text).map some := by
  have htext : d.readText (dir.join ledgerFileName) = .ok text := by
    rw [Disk.readText, h]
    simp only [bind, Except.bind, Text.decodeStrict_encode]
    rfl
  rw [load, if_pos (Disk.exists?_of_read h), htext]

/-- A record is found under its own key. -/
theorem find?_note (l : Ledger) (dir output : Path) (r : OutputRecord) (output' : Path) :
    (l.note dir output r).find? dir output' =
      if Path.keyWithin dir output' = Path.keyWithin dir output then some r
      else l.find? dir output' :=
  Dict.find?_insert

end Ledger

namespace Disk

/-- The digest of a file hangs on what is found by reading it. -/
theorem fingerprint?_eq (d : Disk) (q : Path) :
    d.fingerprint? q = (d.read q).toOption.map Digest.fingerprint := by
  unfold fingerprint? fingerprint
  cases d.read q <;> rfl

variable {S : Place → Prop} {d d' : Disk} {q : Path}

/-- The digest of a file that is there and that growth cannot touch. -/
theorem Grows.fingerprint?_eq_some (h : Grows S d d') (hS : ¬ S (d.place q)) {x : String}
    (hx : d.fingerprint? q = some x) : d'.fingerprint? q = some x := by
  rw [fingerprint?_eq] at hx ⊢
  obtain ⟨content, hread, rfl⟩ := Option.map_eq_some_iff.1 hx
  rw [h.read_eq_some hS hread]
  rfl

/-- The digest of a file, there or not, that growth cannot touch. -/
theorem Grows.fingerprint? (htree : d.IsTree) (h : Grows S d d') (hsteady : d.Steady q)
    (hS : ¬ S (d.place q)) : d'.fingerprint? q = d.fingerprint? q := by
  rw [fingerprint?_eq, fingerprint?_eq, h.read htree hsteady hS]

end Disk

namespace Project

open Effect

/-- The key of a job's record. -/
def key (p : Project) (j : MergedJob) : String := Path.keyWithin p.outputDir j.request.output

/-- The record of a job. -/
def record? (p : Project) (l : Ledger) (j : MergedJob) : Option OutputRecord :=
  l.find? p.outputDir j.request.output

/-- The file of the schema, if one is configured. -/
def schemaPath (p : Project) : Option Path := p.file.defaults.schema.map p.root.join

/-- The files that a job's output is compared with: its template, its schema and the sub-templates
of its record. -/
def inputs (p : Project) (l : Ledger) (j : MergedJob) : List Path :=
  j.templatePath :: (j.schema.toList ++
    (p.record? l j).toList.flatMap fun r => r.fragments.entries.map (·.1))

/-- The template and the sub-templates of a job's record are what they were. -/
def sameSources (p : Project) (l : Ledger) (d : Disk) (j : MergedJob) : Bool :=
  (p.record? l j).any fun r => Ledger.sameSources d r j.templatePath

section

variable {p : Project} {l l' : Ledger} {d d' : Disk} {j : MergedJob}

/-- The judgement of a job by its record. -/
theorem staleness_eq (p : Project) (l : Ledger) (d : Disk) (j : MergedJob) :
    p.staleness l d j =
      match p.record? l j with
      | none => .neverGenerated
      | some r =>
        if d.exists? j.request.output = false then .outputMissing
        else if l.toolVersion ≠ release then .toolUpgraded
        else Ledger.verdict d r j.templatePath j.schema :=
  Ledger.staleness_eq ..

/-- The jobs of a project have its schema. -/
theorem schema_eq_schemaPath (hj : j ∈ p.jobs) : j.schema = p.schemaPath := by
  obtain ⟨job, -, rfl⟩ := List.mem_map.1 hj
  rfl

/-- A schema that can be loaded can be read. -/
theorem read_schema {schema : Option Schema} (h : p.schema d = .ok schema) {q : Path}
    (hq : q ∈ p.schemaPath) : ∃ content, d.read q = .ok content := by
  obtain ⟨path, hpath, rfl⟩ := Option.map_eq_some_iff.1 hq
  cases hread : d.read (p.root.join path) with
  | ok content => exact ⟨content, rfl⟩
  | error cause =>
    have htext : d.readText (p.root.join path) = .error cause := by
      rw [Disk.readText, hread]
      rfl
    rw [Project.schema, hpath] at h
    simp only [Disk.tables, htext] at h
    cases cause <;> cases h

/-- The schema of a project is loaded from what its file holds. -/
theorem schema_eq_ok {schema : Option Schema} (h : p.schema d = .ok schema)
    (hread : ∀ q ∈ p.schemaPath, ∀ content, d.read q = .ok content → d'.read q = .ok content) :
    p.schema d' = .ok schema := by
  cases hpath : p.file.defaults.schema with
  | none =>
    unfold Project.schema at h ⊢
    rwa [hpath] at h ⊢
  | some path =>
    have hq : p.root.join path ∈ p.schemaPath := by simp [schemaPath, hpath]
    obtain ⟨content, hcontent⟩ := read_schema h hq
    have hsame : d'.read (p.root.join path) = d.read (p.root.join path) :=
      (hread _ hq content hcontent).trans hcontent.symm
    have htables : d'.tables (p.root.join path) = d.tables (p.root.join path) := by
      rw [Disk.tables, Disk.readText, hsame, Disk.tables, Disk.readText]
    unfold Project.schema at h ⊢
    rw [hpath] at h ⊢
    dsimp only at h ⊢
    rwa [htables]

/-- A job's schema has a digest where the project's schema can be loaded. -/
theorem fingerprint?_schema {schema : Option Schema} (h : p.schema d = .ok schema)
    (hj : j ∈ p.jobs) {q : Path} (hq : q ∈ j.schema) : ∃ x, d.fingerprint? q = some x := by
  rw [schema_eq_schemaPath hj] at hq
  obtain ⟨content, hread⟩ := read_schema h hq
  exact ⟨_, by rw [Disk.fingerprint?_eq, hread]; rfl⟩

theorem mem_inputs {r : OutputRecord} (hr : p.record? l j = some r) {q : Path} :
    q ∈ p.inputs l j ↔
      q = j.templatePath ∨ q ∈ j.schema ∨ ∃ e ∈ r.fragments.entries, e.1 = q := by
  simp [inputs, hr]

theorem sameSources_of_record {r : OutputRecord} (hr : p.record? l j = some r) :
    p.sameSources l d j = Ledger.sameSources d r j.templatePath := by
  rw [sameSources, hr, Option.any_some]

theorem sameSources_mono
    (hinputs : ∀ q ∈ p.inputs l j, ∀ x, d.fingerprint? q = some x → d'.fingerprint? q = some x)
    (h : p.sameSources l d j = true) : p.sameSources l d' j = true := by
  cases hr : p.record? l j with
  | none =>
    rw [sameSources, hr] at h
    cases h
  | some r =>
    rw [sameSources_of_record hr] at h ⊢
    exact Ledger.sameSources_mono (hinputs _ ((mem_inputs hr).2 (.inl rfl)))
      (fun e he => hinputs _ ((mem_inputs hr).2 (.inr (.inr ⟨e, he, rfl⟩)))) h

theorem sameSources_congr (hinputs : ∀ q ∈ p.inputs l j, d'.fingerprint? q = d.fingerprint? q) :
    p.sameSources l d' j = p.sameSources l d j := by
  rw [Bool.eq_iff_iff]
  exact ⟨sameSources_mono fun q hq x hx => (hinputs q hq).symm.trans hx,
    sameSources_mono fun q hq x hx => (hinputs q hq).trans hx⟩

theorem sameSources_of_templateChanged (h : p.staleness l d j = .templateChanged) :
    p.sameSources l d j = false := by
  rw [staleness_eq] at h
  cases hr : p.record? l j with
  | none => rw [sameSources, hr, Option.any_none]
  | some r =>
    simp only [hr] at h
    split at h
    · cases h
    · split at h
      · cases h
      · rw [sameSources_of_record hr]
        exact Ledger.verdict_eq_templateChanged_iff.1 h

/-- What a later judgement of a job may find otherwise: that the ledger is one of this version by
now, that the output is there by now, and that its sources are what they were by now. -/
theorem staleness_eq_iff {noted : Bool} (hrecord : p.record? l' j = p.record? l j)
    (hversion : l'.toolVersion = if noted then release else l.toolVersion)
    (hexists : d.exists? j.request.output = true → d'.exists? j.request.output = true)
    (hinputs : ∀ q ∈ p.inputs l j, ∀ x, d.fingerprint? q = some x → d'.fingerprint? q = some x)
    (hschema : ∀ q ∈ j.schema, ∃ x, d.fingerprint? q = some x) :
    p.staleness l' d' j = p.staleness l d j ↔
      ¬ ((p.staleness l d j = .toolUpgraded ∧ noted = true) ∨
        (p.staleness l d j = .outputMissing ∧ d'.exists? j.request.output = true) ∨
        (p.staleness l d j = .templateChanged ∧ p.sameSources l d' j = true)) := by
  rw [staleness_eq p l', staleness_eq p l, hrecord]
  cases hr : p.record? l j with
  | none => simp
  | some r =>
    rw [sameSources_of_record hr]
    have hdigest : j.schema.bind d'.fingerprint? = j.schema.bind d.fingerprint? := by
      cases hq : j.schema with
      | none => rfl
      | some q =>
        obtain ⟨x, hx⟩ := hschema q hq
        exact (hinputs q ((mem_inputs hr).2 (.inr (.inl hq))) x hx).trans hx.symm
    have hsources := sameSources_mono hinputs
    rw [sameSources_of_record hr, sameSources_of_record hr] at hsources
    have hverdict := Ledger.verdict_eq_iff hdigest hsources
    obtain ⟨hnot, hnot'⟩ := Ledger.verdict_ne d r j.templatePath j.schema
    cases hd : d.exists? j.request.output with
    | false =>
      cases hd' : d'.exists? j.request.output with
      | false => simp
      | true =>
        obtain ⟨-, hlater⟩ := Ledger.verdict_ne d' r j.templatePath j.schema
        by_cases hl : l'.toolVersion = release
        · simpa [hl] using hlater
        · simp [hl]
    | true =>
      rw [hexists hd]
      by_cases hl : l.toolVersion = release
      · have hl' : l'.toolVersion = release := by
          rw [hversion, hl]
          split <;> rfl
        simp [hl, hl', hverdict, hnot, hnot']
      · cases noted with
        | false => simp [hl, hversion]
        | true =>
          obtain ⟨hlater, -⟩ := Ledger.verdict_ne d' r j.templatePath j.schema
          simpa [hl, hversion] using hlater

end

/-! ## Turns -/

/-- What the turn of a job makes of a ledger and a disk. -/
inductive Turn (p : Project) (S : Place → Prop) (l : Ledger) (d : Disk) (j : MergedJob) :
    JobOutcome → Ledger → Disk → Prop where
  | skipped (fresh : p.staleness l d j = .fresh) : Turn p S l d j (.skipped j.request.output) l d
  | failed {d' : Disk} (stale : p.staleness l d j ≠ .fresh) (cause : Error)
      (grows : Disk.Grows S d d') : Turn p S l d j (.failed j.request.output cause) l d'
  | generated {d' : Disk} (stale : p.staleness l d j ≠ .fresh) (record : OutputRecord)
      (report : Report) (grows : Disk.Grows S d d') :
      Turn p S l d j (.generated j.request.output (p.staleness l d j) report)
        (l.note p.outputDir j.request.output record) d'

section

variable {p : Project} {schema : Provider} {force : Bool} {now : Moment} {S : Place → Prop}
  {l l' last : Ledger} {d d' : Disk} {j : MergedJob} {js : List MergedJob} {o : JobOutcome}
  {outcomes : List JobOutcome}

/-- A job is run to its end, or fails. -/
theorem runJob_cases {reason : Staleness}
    (h : p.runJob schema now l reason j d = (.ok (o, l'), d')) :
    (∃ cause, o = .failed j.request.output cause ∧ l' = l ∧
        (j.workshop schema).generate j.request now d = (.error cause, d')) ∨
      ∃ report record, o = .generated j.request.output reason report ∧
        l' = l.note p.outputDir j.request.output record ∧
        (j.workshop schema).generate j.request now d = (.ok report, d') ∧
        Ledger.recordOf d' j.templatePath (j.fragments report) j.schema j.backend
          report.linesWritten now = .ok record := by
  unfold runJob at h
  obtain ⟨r, d₁, hattempt, h⟩ := bind_eq_ok_iff.1 h
  cases hattempt
  cases hr : ((j.workshop schema).generate j.request now d).1 with
  | error cause =>
    rw [hr] at h
    cases h
    exact .inl ⟨cause, rfl, rfl, Prod.ext hr rfl⟩
  | ok report =>
    rw [hr] at h
    obtain ⟨record, d₂, hquery, h⟩ := bind_eq_ok_iff.1 h
    cases h
    obtain ⟨hrecord, rfl⟩ := Prod.mk.inj hquery
    exact .inr ⟨report, record, rfl, rfl, Prod.ext hr rfl, mapError_eq_ok_iff.1 hrecord⟩

theorem runJob_grows (hS : S (d.place j.request.output)) {reason : Staleness}
    (h : p.runJob schema now l reason j d = (.ok (o, l'), d')) : Disk.Grows S d d' := by
  have hgrows := (j.workshop schema).generate_grows j.request now hS
  obtain ⟨_, -, -, hgenerate⟩ | ⟨_, _, -, -, hgenerate, -⟩ := runJob_cases h <;>
    rwa [hgenerate] at hgrows

/-- Running a job is a turn of a stale job. -/
theorem runJob_turn (hS : S (d.place j.request.output)) (hstale : p.staleness l d j ≠ .fresh)
    (h : p.runJob schema now l (p.staleness l d j) j d = (.ok (o, l'), d')) :
    Turn p S l d j o l' d' := by
  have hgrows := runJob_grows hS h
  obtain ⟨cause, rfl, rfl, -⟩ | ⟨report, record, rfl, rfl, -, -⟩ := runJob_cases h
  · exact .failed hstale cause hgrows
  · exact .generated hstale record report hgrows

/-- A run over jobs skips the first one when it is fresh and nothing is forced, and else runs it. -/
theorem runJobs_cons_cases
    (h : p.runJobs schema force now l (j :: js) d = (.ok (outcomes, last), d')) :
    ∃ o l₁ d₁ rest, outcomes = o :: rest ∧
      (o = .skipped j.request.output ∧ l₁ = l ∧ d₁ = d ∧ p.staleness l d j = .fresh ∨
        (force = false → p.staleness l d j ≠ .fresh) ∧
          p.runJob schema now l (p.staleness l d j) j d = (.ok (o, l₁), d₁)) ∧
      p.runJobs schema force now l₁ js d₁ = (.ok (rest, last), d') := by
  rw [runJobs, get_bind] at h
  dsimp only at h
  split at h
  · next hfresh =>
    obtain ⟨⟨rest, last'⟩, d₁, hrest, h⟩ := bind_eq_ok_iff.1 h
    cases h
    have hfresh : p.staleness l d j = .fresh := by
      simp only [Staleness.isStale, Bool.and_eq_true, Bool.not_eq_true', bne_eq_false_iff_eq]
        at hfresh
      exact hfresh.2
    exact ⟨_, l, d, rest, rfl, .inl ⟨rfl, rfl, rfl, hfresh⟩, hrest⟩
  · next hstale =>
    obtain ⟨⟨o, l₁⟩, d₁, hjob, h⟩ := bind_eq_ok_iff.1 h
    obtain ⟨⟨rest, last'⟩, d₂, hrest, h⟩ := bind_eq_ok_iff.1 h
    cases h
    refine ⟨o, l₁, d₁, rest, rfl, .inr ⟨fun hforce => ?_, hjob⟩, hrest⟩
    simpa [Staleness.isStale, hforce] using hstale

/-- Where nothing is forced, it begins with the turn of the first one. -/
theorem runJobs_cons (hS : S (d.place j.request.output))
    (h : p.runJobs schema false now l (j :: js) d = (.ok (outcomes, last), d')) :
    ∃ o l₁ d₁ rest, outcomes = o :: rest ∧ Turn p S l d j o l₁ d₁ ∧
      p.runJobs schema false now l₁ js d₁ = (.ok (rest, last), d') := by
  obtain ⟨o, l₁, d₁, rest, rfl, ⟨rfl, rfl, rfl, hfresh⟩ | ⟨hstale, hjob⟩, hrest⟩ :=
    runJobs_cons_cases h
  · exact ⟨_, _, _, rest, rfl, .skipped hfresh, hrest⟩
  · exact ⟨o, l₁, d₁, rest, rfl, runJob_turn hS (hstale rfl) hjob, hrest⟩

/-- What a run over jobs makes of a ledger and a disk: one outcome a job, records of these jobs
only, the version of this tool once something was generated, and a disk that has grown. -/
structure Progress (p : Project) (S : Place → Prop) (js : List MergedJob) (l : Ledger) (d : Disk)
    (outcomes : List JobOutcome) (l' : Ledger) (d' : Disk) : Prop where
  length : outcomes.length = js.length
  record? : ∀ i, p.key i ∉ js.map p.key → p.record? l' i = p.record? l i
  toolVersion : l'.toolVersion =
    if outcomes.any (·.isGenerated) then release else l.toolVersion
  grows : Disk.Grows S d d'

/-- Running a job sets its own record at most, and the version when it does. -/
theorem runJob_progress (hS : S (d.place j.request.output)) {reason : Staleness}
    (h : p.runJob schema now l reason j d = (.ok (o, l'), d')) :
    Progress p S [j] l d [o] l' d' := by
  have hgrows := runJob_grows hS h
  obtain ⟨cause, rfl, rfl, -⟩ | ⟨report, record, rfl, rfl, -, -⟩ := runJob_cases h
  · exact ⟨rfl, fun _ _ => rfl, rfl, hgrows⟩
  · refine ⟨rfl, fun i hi => ?_, rfl, hgrows⟩
    exact (Ledger.find?_note ..).trans (if_neg fun hkey => hi (List.mem_singleton.2 hkey))

theorem Progress.cons {d₁ : Disk} {l₁ : Ledger} {rest : List JobOutcome}
    (h : Progress p S [j] l d [o] l₁ d₁) (h' : Progress p S js l₁ d₁ rest last d') :
    Progress p S (j :: js) l d (o :: rest) last d' := by
  refine ⟨by simp [h'.length], fun i hi => ?_, ?_, h.grows.trans h'.grows⟩
  · simp only [List.map_cons, List.mem_cons, not_or] at hi
    rw [h'.record? i hi.2, h.record? i (by simpa using hi.1)]
  · rw [h'.toolVersion, h.toolVersion]
    cases ho : o.isGenerated <;> simp [ho]

/-- A run over jobs makes progress turn by turn. -/
theorem runJobs_progress (hS : ∀ i ∈ js, S (d.place i.request.output))
    (h : p.runJobs schema force now l js d = (.ok (outcomes, last), d')) :
    Progress p S js l d outcomes last d' := by
  induction js generalizing l d outcomes with
  | nil =>
    cases h
    exact ⟨rfl, fun _ _ => rfl, rfl, .refl⟩
  | cons j js ih =>
    obtain ⟨o, l₁, d₁, rest, rfl, hturn, hrest⟩ := runJobs_cons_cases h
    have hfirst : Progress p S [j] l d [o] l₁ d₁ := by
      obtain ⟨rfl, rfl, rfl, -⟩ | ⟨-, hjob⟩ := hturn
      · exact ⟨rfl, fun _ _ => rfl, rfl, .refl⟩
      · exact runJob_progress (hS j List.mem_cons_self) hjob
    refine hfirst.cons (ih (fun i hi => ?_) hrest)
    rw [hfirst.grows.place]
    exact hS i (List.mem_cons_of_mem _ hi)

/-- A run over jobs is a run over the first of them and then over the others. -/
theorem runJobs_append (p : Project) (schema : Provider) (force : Bool) (now : Moment) (l : Ledger)
    (js ks : List MergedJob) : p.runJobs schema force now l (js ++ ks) =
      (p.runJobs schema force now l js >>= fun x =>
        p.runJobs schema force now x.2 ks >>= fun y => pure (x.1 ++ y.1, y.2)) := by
  induction js generalizing l with
  | nil => simp [runJobs]
  | cons j js ih =>
    simp only [List.cons_append, runJobs, bind_assoc]
    refine bind_congr fun d => ?_
    split <;> simp [ih]

/-- There is one outcome a job. -/
theorem runJobs_length (h : p.runJobs schema force now l js d = (.ok (outcomes, last), d')) :
    outcomes.length = js.length :=
  (runJobs_progress (S := fun _ => True) (fun _ _ => trivial) h).length

/-- When it comes to its outcomes, the first of these are those of the first jobs. -/
theorem runJobs_append_eq_ok {ks : List MergedJob}
    (h : p.runJobs schema force now l (js ++ ks) d = (.ok (outcomes, last), d')) :
    ∃ l₁ d₁, p.runJobs schema force now l js d = (.ok (outcomes.take js.length, l₁), d₁) ∧
      p.runJobs schema force now l₁ ks d₁ = (.ok (outcomes.drop js.length, last), d') := by
  rw [runJobs_append] at h
  obtain ⟨⟨before, l₁⟩, d₁, hbefore, h⟩ := bind_eq_ok_iff.1 h
  obtain ⟨⟨rest, l₂⟩, d₂, hrest, h⟩ := bind_eq_ok_iff.1 h
  cases h
  have hlength : before.length = js.length := runJobs_length hbefore
  rw [← hlength, List.take_left, List.drop_left]
  exact ⟨l₁, d₁, hbefore, hrest⟩

/-- The turn of a job comes when those before it have had theirs, and then the others have
theirs. -/
theorem runJobs_at (h : p.runJobs schema force now l js d = (.ok (outcomes, last), d')) {k : Nat}
    (hj : js[k]? = some j) (ho : outcomes[k]? = some o) :
    ∃ l₁ d₁, p.runJobs schema force now l (js.take k) d = (.ok (outcomes.take k, l₁), d₁) ∧
      ∃ l₂ d₂, p.runJobs schema force now l₁ [j] d₁ = (.ok ([o], l₂), d₂) ∧
        p.runJobs schema force now l₂ (js.drop (k + 1)) d₂ =
          (.ok (outcomes.drop (k + 1), last), d') := by
  obtain ⟨hk, rfl⟩ := List.getElem?_eq_some_iff.1 hj
  obtain ⟨hk', rfl⟩ := List.getElem?_eq_some_iff.1 ho
  have hlength : (js.take k).length = k := by
    rw [List.length_take, Nat.min_eq_left (Nat.le_of_lt hk)]
  rw [← List.take_append_drop k js] at h
  obtain ⟨l₁, d₁, hbefore, h⟩ := runJobs_append_eq_ok h
  rw [List.drop_eq_getElem_cons hk, ← List.singleton_append] at h
  obtain ⟨l₂, d₂, hturn, hrest⟩ := runJobs_append_eq_ok h
  rw [hlength] at hbefore hturn hrest
  rw [List.drop_drop] at hrest
  rw [List.drop_eq_getElem_cons hk'] at hturn
  exact ⟨l₁, d₁, hbefore, l₂, d₂, hturn, hrest⟩

theorem runJobs_turn (hS : ∀ i ∈ js, S (d.place i.request.output))
    (h : p.runJobs schema false now l js d = (.ok (outcomes, last), d')) {k : Nat}
    (hj : js[k]? = some j) (ho : outcomes[k]? = some o) :
    ∃ l₁ d₁, p.runJobs schema false now l (js.take k) d = (.ok (outcomes.take k, l₁), d₁) ∧
      ∃ l₂ d₂, Turn p S l₁ d₁ j o l₂ d₂ := by
  obtain ⟨l₁, d₁, hbefore, l₂, d₂, hone, -⟩ := runJobs_at h hj ho
  have hprogress := runJobs_progress (fun i hi => hS i (List.mem_of_mem_take hi)) hbefore
  have hS₁ : S (d₁.place j.request.output) := by
    rw [hprogress.grows.place]
    exact hS j (List.mem_of_getElem? hj)
  obtain ⟨o', l₃, d₃, rest, hone', hturn, -⟩ := runJobs_cons hS₁ hone
  obtain rfl : o = o' := (List.cons.inj hone').1
  exact ⟨l₁, d₁, hbefore, l₃, d₃, hturn⟩

end

/-! ## Status and regeneration -/

/-- The metadata of the tables that jobs are run with. -/
def provider (schema : Option Schema) : Provider := (schema.map Schema.provider).getD .absent

theorem ledger_of_read {p : Project} {d : Disk} {l : Ledger} {text : String}
    (h : d.read (p.outputDir.join ledgerFileName) = .ok (Text.encode text))
    (hyaml : Ledger.ofYaml text = .ok l) : p.ledger d = .ok l := by
  rw [ledger, Ledger.load_of_read h, hyaml]
  rfl

/-- A regeneration comes to its outcomes where its project is valid, its jobs come to them, and the
ledger that these leave is saved. -/
theorem regen_eq_ok_iff {p : Project} {force : Bool} {now : Moment} {d after : Disk}
    {outcomes : List JobOutcome} {l : Ledger} {schema : Option Schema}
    (hledger : p.ledger d = .ok l) (hschema : p.schema d = .ok schema) :
    p.regen force now d = (.ok outcomes, after) ↔ p.file.validate.isEmpty = true ∧
      ∃ last done, p.runJobs (provider schema) force now l p.jobs d = (.ok (outcomes, last), done) ∧
        last.save p.outputDir done = (.ok (), after) := by
  unfold regen
  cases hvalid : p.file.validate.isEmpty with
  | false => exact ⟨nofun, nofun⟩
  | true =>
    rw [and_iff_right rfl]
    show (Work.query p.ledger >>= _) d = _ ↔ _
    rw [Work.query_bind hledger, Work.query_bind hschema]
    constructor
    · intro h
      obtain ⟨⟨outcomes', last⟩, done, hjobs, h⟩ := bind_eq_ok_iff.1 h
      obtain ⟨⟨⟩, after', hsaved, h⟩ := bind_eq_ok_iff.1 h
      obtain ⟨rfl, rfl⟩ := pure_eq_ok_iff.1 h
      exact ⟨last, done, hjobs, hsaved⟩
    · rintro ⟨last, done, hjobs, hsaved⟩
      exact bind_eq_ok_iff.2 ⟨_, done, hjobs, bind_eq_ok_iff.2 ⟨(), after, hsaved, rfl⟩⟩

/-- So it has run the jobs with the ledger and the schema. -/
theorem regen_eq_ok {p : Project} {force : Bool} {now : Moment} {d d' : Disk}
    {outcomes : List JobOutcome} {l : Ledger} {schema : Option Schema}
    (hledger : p.ledger d = .ok l) (hschema : p.schema d = .ok schema)
    (h : p.regen force now d = (.ok outcomes, d')) :
    ∃ last d₁,
      p.runJobs (provider schema) force now l p.jobs d = (.ok (outcomes, last), d₁) := by
  obtain ⟨-, last, d₁, hjobs, -⟩ := (regen_eq_ok_iff hledger hschema).1 h
  exact ⟨last, d₁, hjobs⟩

/-- The disk when the turn of the job with the number `k` comes. -/
def diskAt (p : Project) (schema : Option Schema) (now : Moment) (l : Ledger) (d : Disk)
    (k : Nat) : Disk :=
  (p.runJobs (provider schema) false now l (p.jobs.take k) d).2

/-- The jobs of a project keep apart: no two jobs share a record, and no output is a file that a job
is judged by. -/
structure Apart (p : Project) (l : Ledger) (d : Disk) : Prop where
  keys : (p.jobs.map p.key).Nodup
  inputs : ∀ i ∈ p.jobs, ∀ j ∈ p.jobs, ∀ q ∈ p.inputs l j,
    d.place i.request.output ≠ d.place q

/-- The places at which the jobs of a project put files. -/
def outputPlaces (p : Project) (d : Disk) (a : Place) : Prop :=
  ∃ j ∈ p.jobs, d.place j.request.output = a

section

variable {p : Project} {l : Ledger} {d : Disk} {j : MergedJob}

theorem Apart.not_outputPlaces (h : p.Apart l d) (hj : j ∈ p.jobs) {q : Path}
    (hq : q ∈ p.inputs l j) : ¬ p.outputPlaces d (d.place q) := by
  rintro ⟨i, hi, hplace⟩
  exact h.inputs i hi j hj q hq hplace

/-- Where no two of them have the same image, the elements before an element and those after it have
other images. -/
theorem image_not_mem {α β : Type} {f : α → β} {xs : List α} {x : α} {k : Nat}
    (h : (xs.map f).Nodup) (hx : xs[k]? = some x) :
    f x ∉ (xs.take k).map f ∧ f x ∉ (xs.drop (k + 1)).map f := by
  obtain ⟨hk, rfl⟩ := List.getElem?_eq_some_iff.1 hx
  rw [← List.take_append_drop k xs, List.drop_eq_getElem_cons hk, List.map_append,
    List.map_cons, List.nodup_append, List.nodup_cons] at h
  exact ⟨fun hmem => h.2.2 _ hmem _ List.mem_cons_self rfl, h.2.1.1⟩

/-- Where no two jobs share a record, the jobs before a job and those after it have other keys. -/
theorem key_not_mem (hkeys : (p.jobs.map p.key).Nodup) {k : Nat} (hj : p.jobs[k]? = some j) :
    p.key j ∉ (p.jobs.take k).map p.key ∧ p.key j ∉ (p.jobs.drop (k + 1)).map p.key :=
  image_not_mem hkeys hj

theorem Apart.key_not_mem (h : p.Apart l d) {k : Nat} (hj : p.jobs[k]? = some j) :
    p.key j ∉ (p.jobs.take k).map p.key :=
  (Project.key_not_mem h.keys hj).1

end

/-- What the status says of a job is overtaken before its turn: the ledger was one of another
version and something has been generated since, the output was missing and is there now, or its
sources were not what they had been and are so now. -/
def Overtaken (p : Project) (schema : Option Schema) (now : Moment) (l : Ledger) (d : Disk)
    (outcomes : List JobOutcome) (k : Nat) (s : JobStatus) : Prop :=
  (s.staleness = .toolUpgraded ∧ ∃ o ∈ outcomes.take k, o.isGenerated = true) ∨
    (s.staleness = .outputMissing ∧ (p.diskAt schema now l d k).exists? s.output = true) ∨
    (s.staleness = .templateChanged ∧
      ∃ j, p.jobs[k]? = some j ∧ p.sameSources l (p.diskAt schema now l d k) j = true)

end Project

/-- The output of a job. -/
def JobOutcome.output : JobOutcome → Path
  | .generated output _ _ => output
  | .skipped output => output
  | .failed output _ => output

/-- An outcome that a status announces: jobs are skipped where they are fresh, and generated for the
reason that the status gives. -/
def Staleness.Announces (s : Staleness) (o : JobOutcome) : Prop :=
  (o.isSkipped = true ↔ s = .fresh) ∧
    ∀ output reason report, o = .generated output reason report → reason = s

namespace Project

open Effect

section

variable {p : Project} {S : Place → Prop} {l l' : Ledger} {d d' : Disk} {j : MergedJob}
  {o : JobOutcome} {s : Staleness}

theorem Turn.output (h : Turn p S l d j o l' d') : o.output = j.request.output := by
  cases h <;> rfl

/-- A turn is the one announced when its job fails or is judged as it was. -/
theorem Turn.announced_iff (h : Turn p S l d j o l' d')
    (hfresh : s = .fresh → p.staleness l d j = s) :
    s.Announces o ↔ o.isFailed = true ∨ p.staleness l d j = s := by
  cases h with
  | skipped fresh =>
    simp [Staleness.Announces, JobOutcome.isSkipped, JobOutcome.isFailed, fresh, eq_comm]
  | failed stale cause =>
    have hs : s ≠ .fresh := fun hs => stale ((hfresh hs).trans hs)
    simp [Staleness.Announces, JobOutcome.isSkipped, JobOutcome.isFailed, hs]
  | generated stale record report =>
    have hs : p.staleness l d j = s → s ≠ .fresh := fun hs hf => stale (hs.trans hf)
    simpa [Staleness.Announces, JobOutcome.isSkipped, JobOutcome.isFailed] using hs

/-- The turn of a job in a regeneration, after the progress made by the jobs before it. -/
theorem regen_turn {now : Moment} {schema : Option Schema} {outcomes : List JobOutcome} {k : Nat}
    (hledger : p.ledger d = .ok l) (hschema : p.schema d = .ok schema)
    (hregen : p.regen false now d = (.ok outcomes, d')) (hj : p.jobs[k]? = some j)
    (ho : outcomes[k]? = some o) :
    ∃ l₁, Progress p (p.outputPlaces d) (p.jobs.take k) l d (outcomes.take k) l₁
        (p.diskAt schema now l d k) ∧
      ∃ l₂ d₂, Turn p (p.outputPlaces d) l₁ (p.diskAt schema now l d k) j o l₂ d₂ := by
  obtain ⟨last, d₁, hjobs⟩ := regen_eq_ok hledger hschema hregen
  have hall : ∀ i ∈ p.jobs, p.outputPlaces d (d.place i.request.output) :=
    fun i hi => ⟨i, hi, rfl⟩
  obtain ⟨l₁, d₂, hbefore, hturn⟩ := runJobs_turn hall hjobs hj ho
  obtain rfl : p.diskAt schema now l d k = d₂ := by rw [diskAt, hbefore]
  exact ⟨l₁, runJobs_progress (fun i hi => hall i (List.mem_of_mem_take hi)) hbefore, hturn⟩

/-- Where the files are a tree and the paths that a job is judged by are steady, the job is
overtaken through the version or through its output, not through its sources. -/
theorem overtaken_iff_of_steady {now : Moment} {schema : Option Schema}
    {outcomes : List JobOutcome} {k : Nat} (hledger : p.ledger d = .ok l)
    (hschema : p.schema d = .ok schema) (hapart : p.Apart l d)
    (hregen : p.regen false now d = (.ok outcomes, d')) (hj : p.jobs[k]? = some j)
    (ho : outcomes[k]? = some o) (htree : d.IsTree) (hsteady : ∀ q ∈ p.inputs l j, d.Steady q) :
    p.Overtaken schema now l d outcomes k
        ⟨j.request.template, j.request.output, j.backend, p.staleness l d j⟩ ↔
      (p.staleness l d j = .toolUpgraded ∧ ∃ o ∈ outcomes.take k, o.isGenerated = true) ∨
        (p.staleness l d j = .outputMissing ∧
          (p.diskAt schema now l d k).exists? j.request.output = true) := by
  obtain ⟨l₁, hprogress, -⟩ := regen_turn hledger hschema hregen hj ho
  have hinputs : ∀ q ∈ p.inputs l j,
      (p.diskAt schema now l d k).fingerprint? q = d.fingerprint? q := fun q hq =>
    hprogress.grows.fingerprint? htree (hsteady q hq)
      (hapart.not_outputPlaces (List.mem_of_getElem? hj) hq)
  have hsources : ¬ (p.staleness l d j = .templateChanged ∧
      ∃ i, p.jobs[k]? = some i ∧ p.sameSources l (p.diskAt schema now l d k) i = true) := by
    rintro ⟨hchanged, i, hi, hsame⟩
    obtain rfl := Option.some.inj (hj.symm.trans hi)
    rw [sameSources_congr hinputs, sameSources_of_templateChanged hchanged] at hsame
    cases hsame
  unfold Overtaken
  rw [or_iff_left hsources]

end

/-- **Regeneration does what the status announced, unless it is overtaken.** Each job has one
outcome. A job that does not fail is skipped, or generated for the reason given, exactly as its
status announced it where the status still holds at its turn. -/
theorem regen_announced_iff (p : Project) (now : Moment) (l : Ledger) (schema : Option Schema)
    (d d' : Disk) (statuses : List JobStatus) (outcomes : List JobOutcome)
    (hledger : p.ledger d = .ok l) (hschema : p.schema d = .ok schema) (hapart : p.Apart l d)
    (hstatus : p.status d = .ok statuses)
    (hregen : p.regen false now d = (.ok outcomes, d')) :
    outcomes.length = statuses.length ∧
      ∀ k s o, statuses[k]? = some s → outcomes[k]? = some o →
        o.output = s.output ∧
        (s.staleness.Announces o ↔
          o.isFailed = true ∨ ¬ p.Overtaken schema now l d outcomes k s) := by
  obtain rfl : statuses = p.jobs.map fun j => ⟨j.request.template, j.request.output, j.backend,
      p.staleness l d j⟩ := by
    rw [status, hledger] at hstatus
    exact (Except.ok.inj hstatus).symm
  refine ⟨?_, fun k s o hs ho => ?_⟩
  · obtain ⟨last, d₁, hjobs⟩ := regen_eq_ok hledger hschema hregen
    rw [List.length_map]
    exact (runJobs_progress (S := p.outputPlaces d) (fun i hi => ⟨i, hi, rfl⟩) hjobs).length
  rw [List.getElem?_map] at hs
  obtain ⟨j, hj, rfl⟩ := Option.map_eq_some_iff.1 hs
  obtain ⟨l₁, hprogress, l₂, d₂, hturn⟩ := regen_turn hledger hschema hregen hj ho
  have hmem : j ∈ p.jobs := List.mem_of_getElem? hj
  have hsame := staleness_eq_iff (hprogress.record? j (hapart.key_not_mem hj))
    hprogress.toolVersion hprogress.grows.exists?
    (fun q hq _ => hprogress.grows.fingerprint?_eq_some (hapart.not_outputPlaces hmem hq))
    fun q hq => fingerprint?_schema hschema hmem hq
  have hfresh : p.staleness l d j = .fresh →
      p.staleness l₁ (p.diskAt schema now l d k) j = p.staleness l d j := by
    intro hs
    rw [hsame, hs]
    simp
  refine ⟨hturn.output, (hturn.announced_iff hfresh).trans ?_⟩
  rw [hsame, Overtaken, List.any_eq_true]
  simp [hj]

/-! ## A project after an upgrade

An earlier version of the tool has generated the second of two outputs. Generating the first one now
makes the ledger one of this version, and the second job is skipped.
-/

/-- A project of two jobs. -/
def twoJobs : Project where
  root := "/w"
  file :=
    { version := 1, name := "rating", defaults := {}
      jobs :=
        [{ template := "a.cbt", output := "A.cbl", insuranceLine := "BOP"
           processType := "RATE" },
         { template := "b.cbt", output := "B.cbl", insuranceLine := "BOP"
           processType := "RATE" }] }

/-- The content of both templates, which is also what they generate. -/
def stopRun : Text.Bytes := Text.encode "       STOP RUN.\n"

/-- The digest of `stopRun`. -/
def stopRunDigest : String := "6c6423c790a4928b9d9e8efcbf7a23e076a3b8f0e0865344ae736007b1136285"

/-- The ledger of the earlier version. -/
def earlierLedger : Ledger where
  outputs := .ofList
    [("B.cbl",
      { template := "b.cbt", templateDigest := stopRunDigest, backend := .cobol
        generatedAt := ⟨0⟩ })]
  toolVersion := "0.0.1"

/-- The file of that ledger. -/
def earlierText : String :=
  "outputs: \x7bB.cbl: \x7btemplate: b.cbt, template_hash: " ++ stopRunDigest ++
    ", backend: cobol, generated_at: 0\x7d\x7d\ntool_version: 0.0.1\n"

/-- The files as the earlier version has left them. -/
def earlierDisk : Disk where
  entries :=
    [(["w"], .directory), (["w", "templates"], .directory), (["w", "generated"], .directory),
     (["w", "templates", "a.cbt"], .file stopRun), (["w", "templates", "b.cbt"], .file stopRun),
     (["w", "generated", "B.cbl"], .file stopRun),
     (["w", "generated", ledgerFileName], .file (Text.encode earlierText))]

/-- The outcomes of regenerating the project. -/
def laterOutcomes : List JobOutcome :=
  [.generated "/w/generated/A.cbl" .neverGenerated { linesRead := 1, linesWritten := 1 },
   .skipped "/w/generated/B.cbl"]

/-- The status of the second job before. -/
def earlierStatus : JobStatus := ⟨"b.cbt", "/w/generated/B.cbl", .cobol, .toolUpgraded⟩

theorem ofYaml_earlierText : Ledger.ofYaml earlierText = .ok earlierLedger :=
  eq_ok_of_toOption (by decide +kernel)

theorem ledger_earlierDisk : twoJobs.ledger earlierDisk = .ok earlierLedger :=
  ledger_of_read (Disk.read_eq_ok_iff.2 ⟨["w", "generated", ledgerFileName],
    eq_ok_of_toOption (by decide +kernel), rfl⟩) ofYaml_earlierText

theorem status_earlierDisk : twoJobs.status earlierDisk =
    .ok [⟨"a.cbt", "/w/generated/A.cbl", .cobol, .neverGenerated⟩, earlierStatus] := by
  rw [status, ledger_earlierDisk]
  exact eq_ok_of_toOption (by decide +kernel)

theorem validate_twoJobs : twoJobs.file.validate = [] :=
  ProjectFile.validate_of_sorted (by decide) (by decide +kernel) (by decide +kernel)
    (by decide +kernel)

theorem regen_earlierDisk : twoJobs.regen false ⟨0⟩ earlierDisk =
    (.ok laterOutcomes, (twoJobs.regen false ⟨0⟩ earlierDisk).2) := by
  refine eq_ok_of_fst ?_
  unfold regen
  rw [validate_twoJobs]
  show ((Work.query twoJobs.ledger >>= _) earlierDisk).1.toOption = _
  rw [Work.query_bind ledger_earlierDisk]
  decide +kernel

theorem apart_earlierDisk : twoJobs.Apart earlierLedger earlierDisk where
  keys := by decide +kernel
  inputs := by decide +kernel

/-- The job that the earlier version had run is overtaken. -/
theorem overtaken_earlierDisk :
    twoJobs.Overtaken none ⟨0⟩ earlierLedger earlierDisk laterOutcomes 1 earlierStatus := by
  have hannounced := ((regen_announced_iff twoJobs ⟨0⟩ earlierLedger none earlierDisk _ _ _
    ledger_earlierDisk rfl apart_earlierDisk status_earlierDisk regen_earlierDisk).2
      1 earlierStatus (.skipped "/w/generated/B.cbl") rfl rfl).2
  refine Classical.byContradiction fun hnot => ?_
  have hskipped := (hannounced.2 (.inr hnot)).1.1 rfl
  cases hskipped

/-- A job is skipped although the status said that another version had generated its output, and
although no job's output is a file that another job is judged by. -/
theorem regen_skips_upgraded :
    twoJobs.Apart earlierLedger earlierDisk ∧
      (∃ statuses, twoJobs.status earlierDisk = .ok statuses ∧
        statuses[1]? = some earlierStatus ∧ earlierStatus.staleness ≠ .fresh) ∧
      ∃ outcomes d', twoJobs.regen false ⟨0⟩ earlierDisk = (.ok outcomes, d') ∧
        outcomes[1]? = some (.skipped earlierStatus.output) :=
  ⟨apart_earlierDisk, ⟨_, status_earlierDisk, rfl, nofun⟩, _, _, regen_earlierDisk, rfl⟩

end Project

end Stencil
