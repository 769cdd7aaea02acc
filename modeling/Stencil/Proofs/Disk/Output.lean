import Stencil.Proofs.Disk.Growth
import Stencil.Proofs.Path
import Stencil.Proofs.Run.Opened

/-!
# Outputs

Where a file is, its directory is, too (`Disk.isDirectory_directory`). So a run into a file that is
there makes no directory, and puts its lines in the place of the file. `Workshop.Writes` is what a
run does that comes to its end, from the template that it finds to the file that it leaves; it can
be repeated on any disk on which the templates that it opened are what they were (`Writes.again`).
-/

namespace Stencil

namespace Disk

open Effect

variable {d d' : Disk} {a b c : Place} {p q n : Path} {s : List Char}
  {front ends ss ts : List (List Char)} {content : Text.Bytes}

/-! ## Directories on a disk -/

theorem walk_append_eq_ok_iff :
    d.walk a (ss ++ ts) = .ok c ↔ ∃ b, d.walk a ss = .ok b ∧ d.walk b ts = .ok c := by
  rw [walk, List.foldlM_append]
  exact except_bind_eq_ok_iff

/-- Idle segments lead nowhere. -/
theorem walk_idle (hss : ∀ s ∈ ss, Path.idle s = true) (h : d.walk a ss = .ok b) : b = a := by
  induction ss generalizing a with
  | nil =>
    cases h
    rfl
  | cons s ss ih =>
    obtain ⟨c, hstep, hrest⟩ := walk_cons_eq_ok_iff.1 h
    obtain ⟨-, hc⟩ := step_eq_ok hstep
    rw [Place.follow, if_pos (hss s List.mem_cons_self)] at hc
    subst hc
    exact ih (fun t ht => hss t (List.mem_cons_of_mem s ht)) hrest

/-- Idle segments lead from a directory to itself. -/
theorem walk_of_idle (hdir : d.find? b = some .directory) (hss : ∀ s ∈ ss, Path.idle s = true) :
    d.walk b ss = .ok b := by
  induction ss with
  | nil => rfl
  | cons s ss ih =>
    refine walk_cons_eq_ok_iff.2 ⟨b, ?_, ih fun t ht => hss t (List.mem_cons_of_mem s ht)⟩
    rw [step, hdir]
    exact if_pos (hss s List.mem_cons_self)

theorem isDirectory_iff :
    d.isDirectory p = true ↔ ∃ a, d.locate p = .ok a ∧ d.find? a = some .directory := by
  rw [isDirectory, lookup_toOption]
  cases d.locate p with
  | error err => simp [Except.toOption]
  | ok a => simp [Except.toOption]

theorem contentAt_eq_some_iff :
    d.contentAt a = some content ↔ d.find? a = some (.file content) := by
  unfold contentAt
  rcases d.find? a with _ | _ | _ <;> simp [Entry.content?]

theorem read_eq_ok_iff : d.read p = .ok content ↔
    ∃ a, d.locate p = .ok a ∧ d.find? a = some (.file content) := by
  have hoption : d.read p = .ok content ↔ (d.read p).toOption = some content :=
    ⟨congrArg Except.toOption, eq_ok_of_toOption⟩
  rw [hoption, read_toOption]
  cases d.locate p with
  | error err => simp [Except.toOption]
  | ok a =>
    show d.contentAt a = some content ↔ _
    simp [contentAt_eq_some_iff]

/-- What can be read is there. -/
theorem exists?_of_read (h : d.read p = .ok content) : d.exists? p = true := by
  obtain ⟨a, hl, hfile⟩ := read_eq_ok_iff.1 h
  exact exists?_eq_true_iff.2 ⟨a, hl, by rw [hfile]; rfl⟩

/-- The last segment of a path that leads somewhere gives the place its name, if it is one. -/
theorem target_of_locate (h : d.locate p = .ok a) :
    d.target p = .ok (match p.firmSegments.getLast? with
      | none => none
      | some s => if Path.idle s || s == ['.', '.'] then none else some a) := by
  obtain ⟨hvet, hwalk⟩ := locate_eq_ok_iff.1 h
  obtain ⟨ends, hsplit, hends⟩ := exists_firmSegments p
  rw [hsplit] at hwalk
  obtain ⟨b, hfirm, hrest⟩ := walk_append_eq_ok_iff.1 hwalk
  obtain rfl : a = b := walk_idle (fun s hs => by simp [Path.idle, hends s hs]) hrest
  unfold target
  rw [hvet]
  cases hlast : p.firmSegments.getLast? with
  | none => rfl
  | some s =>
    obtain ⟨front, hfront⟩ := List.getLast?_eq_some_iff.1 hlast
    rw [hfront] at hfirm
    obtain ⟨c, hc, hs⟩ := walk_append_eq_ok_iff.1 hfirm
    obtain ⟨_, hstep, hnil⟩ := walk_cons_eq_ok_iff.1 hs
    cases hnil
    rw [hfront, List.dropLast_concat]
    show (d.walk (d.start p) front >>= fun c => d.step c s >>= fun x => pure _) = _
    rw [hc]
    show (d.step c s >>= fun x => pure _) = _
    rw [hstep]
    rfl

/-- A path that gives a name ends in one. -/
theorem exists_endsIn_of_target (h : d.target p = .ok (some a)) :
    ∃ s ends, p.EndsIn p.firmSegments.dropLast s ends ∧ p.firmSegments.getLast? = some s := by
  obtain ⟨ends, hsplit, hends⟩ := exists_firmSegments p
  unfold target at h
  obtain ⟨-, -, h⟩ := except_bind_eq_ok_iff.1 h
  split at h
  · cases h
  · next s hlast =>
    obtain ⟨c, -, h⟩ := except_bind_eq_ok_iff.1 h
    obtain ⟨b, -, h⟩ := except_bind_eq_ok_iff.1 h
    obtain ⟨front, hfront⟩ := List.getLast?_eq_some_iff.1 hlast
    refine ⟨s, ends, ⟨?_, ?_, fun t ht => by simp [Path.idle, hends t ht]⟩, hlast⟩
    · rw [hfront, List.dropLast_concat, hsplit, hfront, List.append_assoc, List.singleton_append]
    · split at h
      · cases h
      · next hname => simpa using hname

/-- A directory that is there is not made, -/
theorem makeDirectory_of_isDirectory (h : d.isDirectory p = true) :
    d.makeDirectory p = .error .alreadyExists := by
  obtain ⟨a, hl, hdir⟩ := isDirectory_iff.1 h
  rw [makeDirectory, target_of_locate hl]
  split
  · rfl
  · next s hlast =>
    cases Path.idle s || s == ['.', '.'] with
    | true => rfl
    | false => exact if_pos (by rw [hdir]; rfl)

/-- and nothing is made above it. -/
theorem makeFrom_of_isDirectory {ps : List Path} (h : d.isDirectory p = true) :
    d.makeFrom (p :: ps) = (.ok (), d) := by
  rw [makeFrom, makeDirectory_of_isDirectory h, h]
  split <;> rfl

theorem makeDirectories_of_isDirectory (h : d.isDirectory p = true) :
    d.makeDirectories p = (.ok (), d) := by
  rw [makeDirectories, Path.ancestors]
  exact makeFrom_of_isDirectory h

/-- The beginning of a path that can be looked up can be, too. -/
theorem vet_of_leading (hleading : q.toList <+: p.toList) (hq : q.isEmpty = false)
    (h : vet p = .ok ()) : vet q = .ok () := by
  obtain ⟨more, hmore⟩ := hleading
  unfold vet isImpossible at h ⊢
  rw [← hmore] at h
  split at h
  · cases h
  · next himpossible =>
    split at h
    · cases h
    · split at h
      · cases h
      · next hlong =>
        rw [Text.byteSize_append] at hlong
        rw [if_neg fun hmem => himpossible (by simpa using .inl (by simpa using hmem)),
          if_neg (by simp [hq]), if_neg (by omega)]

/-- The beginning of a path starts where the path does. -/
theorem start_of_leading (hleading : q.toList <+: p.toList) (hq : q.isEmpty = false) :
    d.start q = d.start p := by
  obtain ⟨more, hmore⟩ := hleading
  rw [start, start, Path.isAbsolute, Path.isAbsolute, ← hmore]
  cases hlist : q.toList with
  | nil =>
    rw [String.toList_eq_nil_iff.1 hlist] at hq
    cases hq
  | cons c cs => rfl

/-- What leads to where some segments do is a directory where they lead to one. -/
theorem isDirectory_iff_of_leads (h : q.Leads p front) (hvet : vet p = .ok ()) :
    d.isDirectory q = true ↔
      ∃ b, d.walk (d.start p) front = .ok b ∧ d.find? b = some .directory := by
  obtain ⟨rest, hfront, hidle⟩ := h.segments
  rw [hfront, isDirectory_iff]
  refine exists_congr fun b => and_congr_left fun hdir => ?_
  rw [locate_eq_ok_iff, start_of_leading h.leading h.text,
    and_iff_right (vet_of_leading h.leading h.text hvet)]
  refine ⟨fun hwalk => walk_append_eq_ok_iff.2 ⟨b, hwalk, walk_of_idle hdir hidle⟩, fun hwalk => ?_⟩
  obtain ⟨c, hss, hrest⟩ := walk_append_eq_ok_iff.1 hwalk
  rwa [walk_idle hidle hrest]

/-- The directory of a file is one where the segments before its name lead to one. -/
theorem isDirectory_directory_iff (hname : p.EndsIn front s ends) (hvet : vet p = .ok ()) :
    d.isDirectory p.directory = true ↔
      ∃ b, d.walk (d.start p) front = .ok b ∧ d.find? b = some .directory := by
  rcases hname.directory_cases with ⟨heq, hidle⟩ | ⟨hleads, -⟩
  · have hstart : d.isDirectory p.directory = true ↔ d.find? (d.start p) = some .directory := by
      rw [heq, isDirectory_iff, start]
      cases p.isAbsolute with
      | true => exact ⟨fun _ => rfl, fun _ => ⟨[], rfl, rfl⟩⟩
      | false =>
        constructor
        · rintro ⟨a, hl, hdir⟩
          obtain rfl : a = d.here := locate_eq_place hl
          exact hdir
        · intro hdir
          have hstay : d.walk d.here [['.']] = .ok d.here := walk_of_idle hdir (by decide)
          exact ⟨_, locate_eq_ok_iff.2 ⟨rfl, hstay⟩, hdir⟩
    rw [hstart]
    constructor
    · exact fun hdir => ⟨_, walk_of_idle hdir hidle, hdir⟩
    · rintro ⟨b, hwalk, hdir⟩
      rwa [walk_idle hidle hwalk] at hdir
  · exact isDirectory_iff_of_leads hleads hvet

/-- The directory of a file that can be found is one. -/
theorem isDirectory_directory (hname : p.EndsIn front s ends) (hl : d.locate p = .ok a) :
    d.isDirectory p.directory = true := by
  obtain ⟨hvet, hwalk⟩ := locate_eq_ok_iff.1 hl
  rw [hname.segments] at hwalk
  obtain ⟨b, hfront, hrest⟩ := walk_append_eq_ok_iff.1 hwalk
  obtain ⟨c, hstep, -⟩ := walk_cons_eq_ok_iff.1 hrest
  exact (isDirectory_directory_iff hname hvet).2 ⟨b, hfront, (step_eq_ok hstep).1⟩

/-- Where a name in a directory can be found, the directory is. -/
theorem isDirectory_of_locate_join (hn : '/' ∉ n.toList) (hp : p.isEmpty = false)
    (hl : d.locate (p.join n) = .ok a) : d.isDirectory p = true := by
  have hrelative : n.isAbsolute = false := by
    rw [Path.isAbsolute, beq_eq_false_iff_ne]
    exact fun hhead => hn (List.mem_of_head? hhead)
  have hname : n.segments = [n.toList] := List.splitOn_eq_singleton hn
  obtain ⟨hleading, ss, ends, -, hsegments, hends, hjoin⟩ := Path.segments_join hrelative hp
  obtain ⟨hvet, hwalk⟩ := locate_eq_ok_iff.1 hl
  rw [hjoin, hname, ← start_of_leading hleading hp] at hwalk
  obtain ⟨b, hss, hrest⟩ := walk_append_eq_ok_iff.1 hwalk
  obtain ⟨c, hstep, -⟩ := walk_cons_eq_ok_iff.1 hrest
  have hdir : d.find? b = some .directory := (step_eq_ok hstep).1
  refine isDirectory_iff.2 ⟨b, locate_eq_ok_iff.2 ⟨vet_of_leading hleading hp hvet, ?_⟩, hdir⟩
  rw [hsegments]
  exact walk_append_eq_ok_iff.2 ⟨b, hss, walk_of_idle hdir hends⟩

/-! ## Installing where something was installed -/

/-- A file can be put where a file is, by a path by which one was put elsewhere. -/
theorem exists_install {last : Disk} (content' : Text.Bytes) (h : d.install p content = .ok last)
    (hl : d'.locate p = .ok a) (hfile : d'.find? a ≠ some .directory) :
    ∃ after, d'.install p content' = .ok after := by
  obtain ⟨hpossible, a', htarget, hlast, -, -⟩ := install_eq_ok_iff.1 h
  obtain ⟨s, ends, hname, hs⟩ := exists_endsIn_of_target htarget
  refine ⟨_, install_eq_ok_iff.2 ⟨hpossible, a, ?_, hlast, hfile, rfl⟩⟩
  rw [target_of_locate hl, hs]
  simp [hname.name]

/-- A path that gives a name and does not end in a separator leads to what has the name. -/
theorem locate_of_target (h : d.target p = .ok (some a)) (hlast : p.toList.getLast? ≠ some '/') :
    d.locate p = .ok a := by
  obtain ⟨ends, hsplit, hends⟩ := exists_firmSegments p
  unfold target at h
  obtain ⟨⟨⟩, hvet, h⟩ := except_bind_eq_ok_iff.1 h
  split at h
  · cases h
  · next s hs =>
    obtain ⟨c, hwalk, h⟩ := except_bind_eq_ok_iff.1 h
    obtain ⟨b, hstep, h⟩ := except_bind_eq_ok_iff.1 h
    obtain ⟨front, hfront⟩ := List.getLast?_eq_some_iff.1 hs
    have hab : a = b := by
      split at h <;> cases h
      rfl
    have hnone : ends = [] := by
      -- else the last of them is empty, and the text ends in the separator before it
      refine Classical.byContradiction fun hne => hlast ?_
      obtain ⟨init, t, rfl⟩ : ∃ init t, ends = init ++ [t] :=
        ⟨_, _, (List.dropLast_concat_getLast hne).symm⟩
      obtain rfl : t = [] := by simpa using hends t (by simp)
      have hinit : p.firmSegments ++ init ≠ [] := by simp [hfront]
      rw [p.toList_eq_intercalate, hsplit, ← List.append_assoc,
        Path.intercalate_append hinit (List.cons_ne_nil _ _), List.intercalate_singleton,
        List.getLast?_concat]
    rw [hfront, List.dropLast_concat] at hwalk
    refine locate_eq_ok_iff.2 ⟨hvet, ?_⟩
    rw [hsplit, hnone, List.append_nil, hfront]
    exact walk_append_eq_ok_iff.2 ⟨c, hwalk, walk_cons_eq_ok_iff.2 ⟨b, hstep, by rw [hab]; rfl⟩⟩

/-- A file that is put where a path leads is read by that path. -/
theorem read_put (hl : d.locate p = .ok a) (hdir : d.find? a ≠ some .directory) :
    (d.put a (.file content)).read p = .ok content := by
  have hgrows : Grows (fun _ => True) d (d.put a (.file content)) := .put_file trivial hdir content
  have ha : a ≠ [] := by
    rintro rfl
    exact hdir rfl
  exact read_eq_ok_iff.2 ⟨a, hgrows.locate hl, by rw [find?_put ha, if_pos rfl]⟩

/-- What was installed is read. -/
theorem read_of_install (h : d.install p content = .ok d') : d'.read p = .ok content := by
  obtain ⟨-, a, htarget, hlast, hdir, rfl⟩ := install_eq_ok_iff.1 h
  exact read_put (locate_of_target htarget hlast) hdir

/-! ## Writing -/

/-- A file is written where the path leads, unless a directory stands there. -/
theorem write_eq_ok_iff : d.write p content = .ok d' ↔
    ∃ a, d.locate p = .ok a ∧ d.find? a ≠ some .directory ∧ d' = d.put a (.file content) := by
  rw [write, except_bind_eq_ok_iff]
  refine exists_congr fun a => and_congr_right fun _ => ?_
  split
  · next hdir => exact ⟨nofun, fun h => absurd hdir h.1⟩
  · next hdir =>
    show Except.ok _ = .ok d' ↔ _
    rw [Except.ok.injEq, eq_comm]
    exact ⟨fun h => ⟨hdir, h⟩, fun h => h.2⟩

theorem Grows.write {S : Place → Prop} (hS : S (d.place p)) (h : d.write p content = .ok d') :
    Grows S d d' := by
  obtain ⟨a, hl, hdir, rfl⟩ := write_eq_ok_iff.1 h
  exact .put_file ((locate_eq_place hl).symm ▸ hS) hdir content

/-- What was written is read. -/
theorem read_of_write (h : d.write p content = .ok d') : d'.read p = .ok content := by
  obtain ⟨a, hl, hdir, rfl⟩ := write_eq_ok_iff.1 h
  exact read_put hl hdir

/-! ## Templates on growing disks -/

/-- Looking for a place is not refused for a directory. -/
theorem locate_ne_isDirectory (d : Disk) (p : Path) : d.locate p ≠ .error .isDirectory := by
  have hstep : ∀ a s, d.step a s ≠ .error .isDirectory := by
    intro a s
    unfold step
    split
    · nofun
    · nofun
    · repeat' split
      all_goals nofun
  have hwalk : ∀ ss a, d.walk a ss ≠ .error .isDirectory := by
    intro ss
    induction ss with
    | nil => exact fun _ => nofun
    | cons s ss ih =>
      intro a
      rw [walk, List.foldlM_cons]
      cases hs : d.step a s with
      | error err =>
        intro h
        cases h
        exact hstep a s hs
      | ok b => exact ih b
  unfold locate vet
  repeat' split
  · nofun
  · nofun
  · nofun
  · exact hwalk _ _

/-- A path is read as a directory where one stands. -/
theorem exists_directory_of_read (h : d.read p = .error .isDirectory) :
    ∃ a, d.locate p = .ok a ∧ d.find? a = some .directory := by
  rw [read, lookup] at h
  cases hl : d.locate p with
  | error err =>
    rw [hl] at h
    cases h
    exact absurd hl (d.locate_ne_isDirectory p)
  | ok a =>
    rw [hl] at h
    cases ha : d.find? a with
    | none =>
      simp only [bind, Except.bind, ha] at h
      cases h
    | some x =>
      simp only [bind, Except.bind, ha] at h
      cases x with
      | file content => cases h
      | directory => exact ⟨a, rfl, ha⟩

theorem source_of_read (h : d.read p = .ok content) : d.source p = .ok (.ofBytes content) := by
  rw [source, h]

/-- A template that was opened, and that can be read after growth elsewhere, was the file that is
read. -/
theorem Grows.read_of_source {S : Place → Prop} {opened : Source} (h : Grows S d d')
    (hS : ¬ S (d.place p)) (hsource : d.source p = .ok opened)
    (hread : d'.read p = .ok content) : d.read p = .ok content := by
  cases hd : d.read p with
  | ok before =>
    rw [Except.ok.inj (hread.symm.trans (h.read_eq_ok hS hd))]
  | error cause =>
    rw [source, hd] at hsource
    split at hsource
    · next heq => cases heq
    · next heq =>
      -- a directory is still there, and cannot be read
      cases heq
      obtain ⟨a, hl, ha⟩ := exists_directory_of_read hd
      have hlater : (d'.read p).toOption = .none := by
        rw [read_toOption, h.locate hl]
        show d'.contentAt a = .none
        rw [Disk.contentAt, h.directory a ha]
        rfl
      rw [hread] at hlater
      cases hlater
    · cases hsource

section

variable {S : Place → Prop} {dir : Path} {name : String} {source : Source}

theorem templates_eq_ok_iff :
    d.templates dir name = .ok source ↔ d.source (dir.join name) = .ok source := by
  unfold templates
  cases d.source (dir.join name) with
  | error cause => exact ⟨nofun, nofun⟩
  | ok s =>
    show Except.ok s = .ok source ↔ _
    rw [Except.ok.injEq, Except.ok.injEq]

/-- A template that was opened is the same on any disk with what is there after growth elsewhere. -/
theorem Grows.templates_eq_ok {last : Disk} (h : Grows S d last)
    (hS : ¬ S (d.place (dir.join name))) (hopened : d.templates dir name = .ok source)
    (hread : last.read (dir.join name) = .ok content)
    (hread' : d'.read (dir.join name) = .ok content) : d'.templates dir name = .ok source := by
  have hsource := templates_eq_ok_iff.1 hopened
  rw [source_of_read (h.read_of_source hS hsource hread)] at hsource
  cases hsource
  exact templates_eq_ok_iff.2 (source_of_read hread')

end

end Disk

/-! ## Runs that come to their end -/

open Disk Effect

/-- A run that comes to its end: it has found its template, made the directory of its output, run
the template with the templates on the disk, and put the lines that it wrote in place. -/
inductive Workshop.Writes (w : Workshop) (q : Request) (now : Moment) (d : Disk) (report : Report) :
    List String → Disk → Prop where
  | intro {source : Source} {made after : Disk} {sink : Sink}
    (found : (w.engine d).store q.template = .ok source)
    (prepared : prepareOutput q.output d = (.ok (), made))
    (ran : (w.engine made).run q source now {} = (.ok report, sink))
    (installed : made.install q.output (fileOfLines sink.lines.toList) = .ok after) :
    Writes w q now d report sink.lines.toList after

/-- In the run that a request leads to, the template with this name is opened at some stage. -/
def Workshop.Opens (w : Workshop) (q : Request) (now : Moment) (d : Disk) (template : String) :
    Prop :=
  ∃ source made g, (w.engine d).store q.template = .ok source ∧
    prepareOutput q.output d = (.ok (), made) ∧
    Engine.Goes (w.engine made) ((w.engine made).start q source now {}) g ∧
    Engine.Calls template g

namespace Workshop

variable {w : Workshop} {q : Request} {now : Moment} {d d' after : Disk} {report : Report}
  {lines : List String} {template : String}

theorem generate_eq_ok_iff :
    w.generate q now d = (.ok report, after) ↔ ∃ lines, w.Writes q now d report lines after := by
  constructor
  · intro h
    obtain ⟨source, d₁, hfound, h⟩ := bind_eq_ok_iff.1 h
    obtain ⟨found, rfl⟩ := Prod.mk.inj hfound
    obtain ⟨⟨⟩, made, hprepared, h⟩ := bind_eq_ok_iff.1 h
    rw [get_bind] at h
    rcases hrun : (w.engine made).run q source now {} with ⟨result, sink⟩
    simp only [hrun] at h
    obtain ⟨report', d₂, hresult, h⟩ := bind_eq_ok_iff.1 h
    obtain ⟨rfl, rfl⟩ := Prod.mk.inj hresult
    obtain ⟨⟨⟩, d₃, hinstalled, h⟩ := bind_eq_ok_iff.1 h
    obtain ⟨rfl, rfl⟩ := pure_eq_ok_iff.1 h
    refine ⟨_, .intro found hprepared hrun ?_⟩
    unfold installOutput at hinstalled
    split at hinstalled
    · next hput =>
      cases hinstalled
      exact hput
    · cases hinstalled
  · rintro ⟨lines, found, prepared, ran, installed⟩
    refine bind_eq_ok_iff.2 ⟨_, d, Prod.ext found rfl, bind_eq_ok_iff.2 ⟨(), _, prepared, ?_⟩⟩
    rw [get_bind]
    simp only [ran]
    refine bind_eq_ok_iff.2 ⟨report, _, rfl, bind_eq_ok_iff.2 ⟨(), after, ?_, rfl⟩⟩
    rw [installOutput, installed]

/-- The lines are in the file. -/
theorem Writes.read (h : w.Writes q now d report lines after) :
    after.read q.output = .ok (fileOfLines lines) := by
  cases h with
  | intro _ _ _ installed => exact read_of_install installed

/-- What is opened is reported. -/
theorem Writes.opens (h : w.Writes q now d report lines after)
    (hopens : w.Opens q now d template) : template ∈ report.subTemplateNames := by
  cases h with
  | intro found prepared ran _ =>
    obtain ⟨source, made, g, hfound, hprepared, hgoes, hcalls⟩ := hopens
    cases found.symm.trans hfound
    cases prepared.symm.trans hprepared
    exact Engine.run_calls ran hgoes hcalls

/-- **A run can be repeated where its templates are what they were.** -/
theorem Writes.again (h : w.Writes q now d report lines after)
    (hsources : ∀ t, t = q.template ∨ t ∈ report.subTemplateNames →
      d.place (w.templateDir.join t) ≠ d.place q.output ∧ ∃ content,
        after.read (w.templateDir.join t) = .ok content ∧
        d'.read (w.templateDir.join t) = .ok content)
    (hexists : d'.exists? q.output = true) (hfile : d'.isDirectory q.output = false) :
    ∃ last, w.Writes q now d' report lines last := by
  cases h with
  | @intro source made after sink found prepared ran installed =>
    have hmade : Grows (· = d.place q.output) d made := by
      have hgrows := prepareOutput_grows (S := (· = d.place q.output)) (d := d) q.output
      rwa [prepared] at hgrows
    have hafter : Grows (· = d.place q.output) made after := .install (hmade.place _) installed
    obtain ⟨a, hl, hfind⟩ := exists?_eq_true_iff.1 hexists
    have hdir : d'.find? a ≠ some .directory := by
      intro hdir
      rw [isDirectory_iff.2 ⟨a, hl, hdir⟩] at hfile
      cases hfile
    obtain ⟨-, b, htarget, -⟩ := install_eq_ok_iff.1 installed
    obtain ⟨s, ends, hname, -⟩ := exists_endsIn_of_target htarget
    -- the output has a directory, so that the templates are those of the disk as it is
    have hprepared : prepareOutput q.output d' = (.ok (), d') := by
      rw [prepareOutput, makeDirectories_of_isDirectory (isDirectory_directory hname hl)]
      rfl
    have hfound : (w.engine d').store q.template = .ok source := by
      obtain ⟨hplace, content, hread, hread'⟩ := hsources _ (.inl rfl)
      exact (hmade.trans hafter).templates_eq_ok hplace found hread hread'
    have hran : ((w.engine made).withStore (w.engine d').store).run q source now {} =
        (.ok report, sink) := by
      refine Engine.run_withStore ran fun t ht => ?_
      obtain ⟨hplace, content, hread, hread'⟩ := hsources t (.inr ht)
      obtain ⟨opened, hopened⟩ := Engine.run_opened ran ht
      rw [← hmade.place] at hplace
      exact (hafter.templates_eq_ok hplace hopened hread hread').trans hopened.symm
    obtain ⟨last, hinstalled⟩ := exists_install (fileOfLines sink.lines.toList) installed hl hdir
    exact ⟨last, .intro hfound hprepared hran hinstalled⟩

end Workshop

end Stencil
