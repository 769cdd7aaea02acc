import Stencil.Proofs.Disk.Output
import Stencil.Proofs.Run.Single

/-!
# Whole outputs or none

A run into a file does what a run into a sink does, which does what a preview does
(`Workshop.generate_whole`). It runs the template after the directory of its output was made; as
directories are only added by that, every template that is found without it is found as it was
(`Disk.Grows.templates`). The lines come to the file at the end and all at once, and a run that
fails has changed no file (`Workshop.generate_failed`).
-/

namespace Stencil

open Disk Effect

/-- No place. -/
abbrev Nowhere (_ : Place) : Prop := False

namespace Disk

variable {d d' : Disk} {S : Place → Prop} {p dir : Path} {name : String} {s : Source}

/-- A template that can be read is read as it was after growth elsewhere. -/
theorem Grows.source (h : Grows S d d') (hS : ¬ S (d.place p)) (hs : d.source p = .ok s) :
    d'.source p = .ok s := by
  unfold Disk.source at hs
  split at hs
  · next content hread =>
    cases hs
    exact source_of_read (h.read_eq_ok hS hread)
  · next hread =>
    cases hs
    obtain ⟨a, hl, ha⟩ := exists_directory_of_read hread
    have hread' : d'.read p = .error .isDirectory := by
      rw [Disk.read, lookup, h.locate hl]
      simp only [bind, Except.bind, h.directory a ha]
      rfl
    rw [Disk.source, hread']
  · cases hs

/-- Making directories leaves the templates that are there. -/
theorem Grows.templates (h : Grows Nowhere d d') (hs : d.templates dir name = .ok s) :
    d'.templates dir name = .ok s :=
  templates_eq_ok_iff.2 (h.source id (templates_eq_ok_iff.1 hs))

/-- No line of a template on a disk holds a line feed. -/
theorem templates_single (hs : d.templates dir name = .ok s) : s.Single := by
  have hsource := templates_eq_ok_iff.1 hs
  unfold Disk.source at hsource
  split at hsource
  · cases hsource
    exact Source.ofBytes_single _
  · cases hsource
    exact List.forall_mem_nil _
  · cases hsource

end Disk

/-! ## Files of lines -/

/-- A file of lines without line feeds is these lines when it is cut at its line feeds, and nothing
is left. -/
theorem splitOn_fileOfLines {lines : List String} (hlines : ∀ l ∈ lines, '\n' ∉ l.toList) :
    ((fileOfLines lines).splitOn 10).map Text.decodeLossy = lines ++ [""] := by
  have hbytes : fileOfLines lines = (lines.map Text.encode).flatMap (· ++ [10]) := by
    rw [fileOfLines, List.flatMap_map]
  rw [hbytes, splitOn_terminated, List.map_append, List.map_map]
  · congr 1
    exact (List.map_congr_left fun l _ => Text.decodeLossy_encode l).trans (List.map_id' lines)
  · intro bytes hmem
    obtain ⟨l, hl, rfl⟩ := List.mem_map.1 hmem
    exact fun hlf => hlines l hl (Text.mem_encode_lf.1 hlf)

namespace Workshop

variable {w : Workshop} {q : Request} {now : Moment} {d made after : Disk} {report : Report}
  {err : Error} {sink : Sink} {lines : List String}

/-! ## Runs that fail -/

/-- A run that fails has made directories at most. -/
theorem generate_failed (h : w.generate q now d = (.error err, after)) : Grows Nowhere d after := by
  have hprepare : Grows Nowhere d (prepareOutput q.output d).2 := prepareOutput_grows q.output
  rcases bind_eq_error_iff.1 h with hopened | ⟨source, _, hopened, h⟩
  · cases congrArg Prod.snd hopened
    exact .refl
  cases congrArg Prod.snd hopened
  rcases bind_eq_error_iff.1 h with hmade | ⟨⟨⟩, made, hmade, h⟩
  · rwa [hmade] at hprepare
  rw [hmade] at hprepare
  rw [get_bind] at h
  rcases (w.engine made).run q source now {} with ⟨result, sink⟩
  rcases bind_eq_error_iff.1 h with hran | ⟨report, _, hran, h⟩
  · cases congrArg Prod.snd hran
    exact hprepare
  cases congrArg Prod.snd hran
  rcases bind_eq_error_iff.1 h with hput | ⟨⟨⟩, _, -, h⟩
  · -- what cannot be put into its place is not put anywhere
    unfold installOutput at hput
    split at hput
    · cases hput
    · cases hput
      exact hprepare
  · cases h

/-- A run whose template is not there changes nothing. -/
theorem generate_unopened (h : (w.engine d).store q.template = .error err) :
    w.generate q now d = (.error err, d) := by
  rw [generate, bind_eq, Work.query, h]

/-! ## Runs that end well -/

/-- No file operation for the output fails by itself: its directory can be made, and whatever is to
be put into its place then can be. -/
structure Takes (d : Disk) (output : Path) (made : Disk) : Prop where
  prepared : prepareOutput output d = (.ok (), made)
  installs : ∀ content, ∃ after, made.install output content = .ok after

theorem prepared_grows {output : Path} (h : prepareOutput output d = (.ok (), made)) :
    Grows Nowhere d made := by
  have hgrows : Grows Nowhere d (prepareOutput output d).2 := prepareOutput_grows output
  rwa [h] at hgrows

/-- What a run writes without the directory of its output it writes with it. -/
theorem writes_of_generate (h : Takes d q.output made)
    (hrun : (w.engine d).generate q now {} = (.ok report, sink)) :
    ∃ after, w.Writes q now d report sink.lines.toList after := by
  unfold Engine.generate at hrun
  split at hrun
  · cases hrun
  · next source hfound =>
    have hmade : ((w.engine d).withStore (w.engine made).store).run q source now {} =
        (.ok report, sink) := by
      refine Engine.run_withStore hrun fun t ht => ?_
      obtain ⟨opened, hopened⟩ := Engine.run_opened hrun ht
      exact ((prepared_grows h.prepared).templates hopened).trans hopened.symm
    obtain ⟨after, hafter⟩ := h.installs (fileOfLines sink.lines.toList)
    exact ⟨after, .intro hfound h.prepared hmade hafter⟩

/-- What it writes with the directory it writes without, as long as it opens nothing that was not
there before. -/
theorem generate_of_writes (h : w.Writes q now d report lines after)
    (hthere : ∀ t ∈ report.subTemplateNames, ∃ source, d.templates w.templateDir t = .ok source) :
    ∃ sink, (w.engine d).generate q now {} = (.ok report, sink) := by
  cases h with
  | @intro source made after sink found prepared ran installed =>
    have hran : ((w.engine made).withStore (w.engine d).store).run q source now {} =
        (.ok report, sink) := by
      refine Engine.run_withStore ran fun t ht => ?_
      obtain ⟨opened, hopened⟩ := hthere t ht
      exact hopened.trans ((prepared_grows prepared).templates hopened).symm
    rw [Engine.generate, found]
    exact ⟨sink, hran⟩

/-- Where the directory of the output is, a run into a file fails as a run into a sink does. -/
theorem generate_of_isDirectory (hdir : d.isDirectory q.output.directory = true)
    (h : (w.engine d).generate q now {} = (.error err, sink)) :
    w.generate q now d = (.error err, d) := by
  unfold Engine.generate at h
  split at h
  · next hopened =>
    cases h
    exact generate_unopened hopened
  · next source hfound =>
    have hprepared : prepareOutput q.output d = (.ok (), d) := by
      rw [prepareOutput, makeDirectories_of_isDirectory hdir]
      rfl
    refine bind_eq_error_iff.2 (.inr ⟨source, d, Prod.ext hfound rfl, ?_⟩)
    refine bind_eq_error_iff.2 (.inr ⟨(), d, hprepared, ?_⟩)
    rw [get_bind]
    simp only [h]
    exact bind_eq_error_iff.2 (.inl rfl)

/-! ## The three ways to run a template -/

/-- A preview of a stored text is the run of its template into a sink. -/
theorem preview_stored {text : String}
    (h : d.read (w.templateDir.join q.template) = .ok (Text.encode text)) :
    (w.engine d).preview q text now = ((w.engine d).generate q now {}).1.map fun _ =>
      ((w.engine d).generate q now {}).2.lines.toList := by
  have hstore : (w.engine d).store q.template = .ok (.ofText text) := by
    rw [← Source.ofBytes_encode]
    exact templates_eq_ok_iff.2 (source_of_read h)
  have hrun : (w.engine d).generate q now {} = (w.engine d).run q (.ofText text) now {} := by
    rw [Engine.generate, hstore]
  rw [hrun]
  rfl

/-- **An output is written as a whole or not at all.** Take the triggers of a backend and any
schema, limits, request, moment and disk. A preview of the stored text and a run into a sink give
the same lines or the same error, and no line that a sink is asked to take holds a line feed. If the
run into a sink ends well, and no file operation for the output fails by itself, so does the run
into a file, with the same report; the file then holds these lines, each followed by a line feed, so
that it is cut into them, and they are as many as the report says. If the run into a sink fails, so
does the run into a file: as it does where the directory of the output is there, and in any case
unless a template is opened that could not be found before that directory was made. A template that
is not there is the error of both. Whatever a run into a file fails of, no file has changed. -/
theorem generate_whole (b : Backend) (w : Workshop) (hregistry : w.registry = b.registry)
    (q : Request) (now : Moment) (d : Disk) :
    (∀ text, d.read (w.templateDir.join q.template) = .ok (Text.encode text) →
      (w.engine d).preview q text now = ((w.engine d).generate q now {}).1.map fun _ =>
        ((w.engine d).generate q now {}).2.lines.toList) ∧
    (∀ source sink ds g line, (w.engine d).store q.template = .ok source →
      (w.engine d).Asks ((w.engine d).start q source now sink) ds g → .write line ∈ ds →
      '\n' ∉ line.toList) ∧
    (∀ report sink made, (w.engine d).generate q now {} = (.ok report, sink) →
      Takes d q.output made → ∃ after, w.generate q now d = (.ok report, after) ∧
        after.read q.output = .ok (fileOfLines sink.lines.toList) ∧
        ((fileOfLines sink.lines.toList).splitOn 10).map Text.decodeLossy =
          sink.lines.toList ++ [""] ∧
        sink.lines.size = report.linesWritten) ∧
    (∀ err sink, (w.engine d).generate q now {} = (.error err, sink) →
      (d.isDirectory q.output.directory = true → w.generate q now d = (.error err, d)) ∧
      ∀ report after, w.generate q now d = (.ok report, after) →
        ∃ t ∈ report.subTemplateNames, ∀ source, d.templates w.templateDir t ≠ .ok source) ∧
    (∀ err, (w.engine d).store q.template = .error err →
      (w.engine d).generate q now {} = (.error err, {}) ∧ w.generate q now d = (.error err, d)) ∧
    ∀ err after, w.generate q now d = (.error err, after) →
      ∀ a, after.contentAt a = d.contentAt a := by
  have hrules : (w.engine d).rules.Single := Backend.single_rules hregistry
  have hstore : (w.engine d).SingleStore := fun _ _ => templates_single
  refine ⟨fun text => preview_stored, fun source sink ds g line hfound hasks hmem => ?_,
    fun report sink made hrun htakes => ?_, fun err sink hfailed => ⟨fun hdir => ?_, ?_⟩,
    fun err hfailed => ⟨?_, generate_unopened hfailed⟩, fun err after hfailed a => ?_⟩
  · exact hasks.single hrules hstore (Engine.start_single hrules (hstore _ _ hfound)) hmem
  · obtain ⟨after, hwrites⟩ := writes_of_generate htakes hrun
    obtain ⟨source, hfound, hran⟩ : ∃ source, (w.engine d).store q.template = .ok source ∧
        (w.engine d).run q source now {} = (.ok report, sink) := by
      unfold Engine.generate at hrun
      split at hrun
      · cases hrun
      · next source hfound => exact ⟨source, hfound, hrun⟩
    obtain ⟨hcount, hlines⟩ := Engine.run_lines hrules hstore (hstore _ _ hfound) hran
    exact ⟨after, generate_eq_ok_iff.2 ⟨_, hwrites⟩, hwrites.read, splitOn_fileOfLines hlines,
      hcount⟩
  · exact generate_of_isDirectory hdir hfailed
  · intro report after hdone
    obtain ⟨lines, hwrites⟩ := generate_eq_ok_iff.1 hdone
    refine Classical.byContradiction fun hnone => ?_
    obtain ⟨sink', hrun⟩ := generate_of_writes hwrites fun t ht => by
      simpa using fun h => hnone ⟨t, ht, h⟩
    rw [hfailed] at hrun
    cases hrun
  · rw [Engine.generate, hfailed]
  · exact (generate_failed hfailed).contentAt id

/-- A workshop with the triggers of a backend. -/
def bench : Workshop where
  registry := Backend.cobol.registry
  schema := .absent
  limits := {}
  templateDir := "t"

/-- A plain line, an empty one, and one that becomes two. -/
def benchText : String := "A\r\n\n&KEYWHERE|"

/-- A disk with this template and without the directory of the output. -/
def benchDisk : Disk where
  entries := [(["t"], .directory), (["t", "t"], .file (Text.encode benchText))]

/-- A request with the keys of a table. -/
def benchRequest : Request where
  template := "t"
  output := "out/O"
  insuranceLine := ""
  processType := ""
  table := some "T"
  tableFields := some [{ column := "ID", isKey := true }, { column := "NR", isKey := true }]

/-- The disk with the directory of the output. -/
def benchMade : Disk := benchDisk.put ["out"] .directory

/-- The lines of the preview are put into a directory that was made. -/
theorem benchDisk_whole :
    let lines := ["A", "", "WHERE ID = :ID", "  AND NR = :NR"]
    (bench.engine benchDisk).preview benchRequest benchText ⟨0⟩ = .ok lines ∧
    ∃ after, bench.generate benchRequest ⟨0⟩ benchDisk =
        (.ok { linesRead := 3, linesWritten := 4, passes := 1 }, after) ∧
      after.read "out/O" = .ok (fileOfLines lines) := by
  intro lines
  have hstored : benchDisk.read "t/t" = .ok (Text.encode benchText) :=
    eq_ok_of_toOption (by decide +kernel)
  have hreport : ((bench.engine benchDisk).generate benchRequest ⟨0⟩ {}).1 =
      .ok { linesRead := 3, linesWritten := 4, passes := 1 } :=
    eq_ok_of_toOption (by decide +kernel)
  have hsink : ((bench.engine benchDisk).generate benchRequest ⟨0⟩ {}).2 =
      { lines := lines.toArray, flushes := 1 } := by decide +kernel
  have htakes : Takes benchDisk benchRequest.output benchMade := by
    refine ⟨Prod.ext (eq_ok_of_toOption (by decide +kernel)) (by decide +kernel), fun content => ?_⟩
    have htarget : benchMade.target "out/O" = .ok (some ["out", "O"]) :=
      eq_ok_of_toOption (by decide +kernel)
    exact ⟨_, install_eq_ok_iff.2 ⟨by decide +kernel, _, htarget, by decide +kernel,
      by decide +kernel, rfl⟩⟩
  obtain ⟨hpreview, -, hdone, -⟩ :=
    generate_whole .cobol bench rfl benchRequest ⟨0⟩ benchDisk
  have hpreview := hpreview benchText hstored
  rw [hreport, hsink] at hpreview
  obtain ⟨after, hgenerated, hread, -⟩ := hdone _ _ _ (Prod.ext hreport hsink) htakes
  exact ⟨hpreview, after, hgenerated, hread⟩

end Workshop

end Stencil
