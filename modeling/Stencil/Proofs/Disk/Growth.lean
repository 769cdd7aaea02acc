import Stencil.Proofs.Effect
import Stencil.Run.File

/-!
# Disks that grow

A run makes directories where nothing was and puts one file into place; it takes nothing away.
`Grows` says so of the disk before and the disk after, with the places at which files may be put.
Growth elsewhere leaves a file to be found as it was (`Grows.read_eq_some`). It may bring a file
into reach that was not to be found before, but only for a path that goes up out of a directory that
was made: where a path does not, and the disk is a tree, growth elsewhere cannot be seen by reading
(`Grows.read`).
-/

namespace Stencil

/-! ## Places of paths -/

/-- Where a segment leads from a place by its text alone. -/
def Place.follow (a : Place) (segment : List Char) : Place :=
  if Path.idle segment then a
  else if segment == ['.', '.'] then a.dropLast
  else a ++ [String.ofList segment]

/-- The content of an entry that is a file. -/
def Entry.content? : Entry → Option Text.Bytes
  | .file content => some content
  | .directory => none

namespace Disk

open Effect

/-- The place that a path names by its text alone, whatever is there. -/
def place (d : Disk) (p : Path) : Place := p.segments.foldl Place.follow (d.start p)

/-- Everything stands in a directory. -/
def IsTree (d : Disk) : Prop :=
  ∀ a n, d.find? (a ++ [n]) ≠ none → d.find? a = some .directory

/-- What a path leads to does not hang on directories yet to be made: it leads somewhere, or it
never goes up. -/
def Steady (d : Disk) (p : Path) : Prop :=
  (∃ a, d.locate p = .ok a) ∨ ['.', '.'] ∉ p.segments

section

variable {d d' d'' : Disk} {S : Place → Prop} {a b : Place} {segment : List Char} {p : Path}

/-- A segment leads on from a directory only, and then where its text says. -/
theorem step_eq_ok (h : d.step a segment = .ok b) :
    d.find? a = some .directory ∧ b = Place.follow a segment := by
  unfold step at h
  split at h
  · cases h
  · cases h
  · next hdir =>
    refine ⟨hdir, ?_⟩
    unfold Place.follow
    split at h
    · next hidle =>
      cases h
      rw [if_pos hidle]
    · next hidle =>
      rw [if_neg hidle]
      split at h
      · next hup =>
        cases h
        rw [if_pos hup]
      · next hup =>
        rw [if_neg hup]
        split at h <;> cases h
        rfl

/-- What a segment does hangs on the directory only. -/
theorem step_congr (h : d'.find? a = d.find? a) : d'.step a segment = d.step a segment := by
  rw [step, step, h]

/-- A walk takes its first step, and goes on from where that led. -/
theorem walk_cons_eq_ok_iff {segments : List (List Char)} :
    d.walk a (segment :: segments) = .ok b ↔
      ∃ c, d.step a segment = .ok c ∧ d.walk c segments = .ok b := except_bind_eq_ok_iff

/-- Segments lead where their texts say. -/
theorem walk_eq_ok {segments : List (List Char)} (h : d.walk a segments = .ok b) :
    b = segments.foldl Place.follow a := by
  induction segments generalizing a with
  | nil =>
    cases h
    rfl
  | cons s segments ih =>
    obtain ⟨c, hstep, hwalk⟩ := walk_cons_eq_ok_iff.1 h
    obtain ⟨-, rfl⟩ := step_eq_ok hstep
    exact ih hwalk

theorem locate_eq_ok_iff :
    d.locate p = .ok a ↔ vet p = .ok () ∧ d.walk (d.start p) p.segments = .ok a := by
  rw [locate, except_bind_eq_ok_iff]
  exact ⟨fun ⟨_, hvet, hwalk⟩ => ⟨hvet, hwalk⟩, fun ⟨hvet, hwalk⟩ => ⟨(), hvet, hwalk⟩⟩

theorem locate_eq_place (h : d.locate p = .ok a) : a = d.place p :=
  walk_eq_ok (locate_eq_ok_iff.1 h).2

/-- A disk is a tree when each of its entries stands in a directory. -/
theorem isTree_of_entries (h : ∀ e ∈ d.entries, d.find? e.1.dropLast = some .directory) :
    d.IsTree := by
  intro a n hne
  rw [find?, if_neg (by simp)] at hne
  cases he : d.entries.find? fun e => e.1 == a ++ [n] with
  | none =>
    rw [he] at hne
    exact absurd rfl hne
  | some e =>
    have hplace : e.1 = a ++ [n] := by simpa using List.find?_some he
    have hdir := h e (List.mem_of_find?_eq_some he)
    rwa [hplace, List.dropLast_concat] at hdir

/-- Below a place at which nothing stands there is nothing. -/
theorem IsTree.find?_append (h : d.IsTree) (hnone : d.find? a = none) (names : Place) :
    d.find? (a ++ names) = none := by
  induction names generalizing a with
  | nil => rwa [List.append_nil]
  | cons n names ih =>
    have hchild : d.find? (a ++ [n]) = none := by
      refine Classical.byContradiction fun hsome => ?_
      rw [h a n hsome] at hnone
      cases hnone
    have := ih hchild
    rwa [List.append_assoc] at this

/-- A path that never goes up leads further and further down. -/
theorem exists_foldl_follow {segments : List (List Char)} (h : ['.', '.'] ∉ segments) (a : Place) :
    ∃ names, segments.foldl Place.follow a = a ++ names := by
  induction segments generalizing a with
  | nil => exact ⟨[], (List.append_nil a).symm⟩
  | cons s segments ih =>
    obtain ⟨hs, hrest⟩ := not_or.1 (fun hmem => h (List.mem_cons.2 hmem))
    obtain ⟨names, hnames⟩ := ih hrest (Place.follow a s)
    rw [List.foldl_cons, hnames, Place.follow]
    split
    · exact ⟨names, rfl⟩
    · rw [if_neg (by simpa using Ne.symm hs)]
      exact ⟨String.ofList s :: names, by simp⟩

/-- What is found by reading at a place. -/
def contentAt (d : Disk) (a : Place) : Option Text.Bytes := (d.find? a).bind Entry.content?

theorem lookup_toOption (d : Disk) (p : Path) :
    (d.lookup p).toOption = (d.locate p).toOption.bind d.find? := by
  rw [lookup]
  cases d.locate p with
  | error err => rfl
  | ok a =>
    simp only [bind, Except.bind, Except.toOption, Option.bind_some]
    cases d.find? a <;> rfl

theorem read_toOption (d : Disk) (p : Path) :
    (d.read p).toOption = (d.locate p).toOption.bind d.contentAt := by
  have hread : (d.read p).toOption = (d.lookup p).toOption.bind Entry.content? := by
    rw [read]
    cases d.lookup p with
    | error err => rfl
    | ok x => cases x <;> rfl
  rw [hread, lookup_toOption, Option.bind_assoc]
  rfl

theorem exists?_eq_true_iff :
    d.exists? p = true ↔ ∃ a, d.locate p = .ok a ∧ (d.find? a).isSome := by
  rw [exists?, lookup_toOption]
  cases d.locate p with
  | error err => simp [Except.toOption]
  | ok a => simp [Except.toOption]

/-! ## Growth -/

/-- The disk `d'` has everything that `d` has, and further directories; files are put at the places
of `S` only. -/
structure Grows (S : Place → Prop) (d d' : Disk) : Prop where
  here : d'.here = d.here
  directory : ∀ a, d.find? a = some .directory → d'.find? a = some .directory
  file : ∀ a c, d.find? a = some (.file c) →
    ∃ c', d'.find? a = some (.file c') ∧ (S a ∨ c' = c)
  none : ∀ a, d.find? a = none → ¬ S a → d'.find? a = none ∨ d'.find? a = some .directory

namespace Grows

theorem refl : Grows S d d :=
  ⟨rfl, fun _ h => h, fun _ c h => ⟨c, h, .inr rfl⟩, fun _ h _ => .inl h⟩

theorem trans (h : Grows S d d') (h' : Grows S d' d'') : Grows S d d'' := by
  refine ⟨h'.here.trans h.here, fun a ha => h'.directory a (h.directory a ha), fun a c ha => ?_,
    fun a ha hS => ?_⟩
  · obtain ⟨c', hc', hsame⟩ := h.file a c ha
    obtain ⟨c'', hc'', hsame'⟩ := h'.file a c' hc'
    refine ⟨c'', hc'', ?_⟩
    rcases hsame with hS | rfl
    · exact .inl hS
    · exact hsame'
  · rcases h.none a ha hS with hnone | hdir
    · exact h'.none a hnone hS
    · exact .inr (h'.directory a hdir)

/-- A directory made where nothing was. -/
theorem put_directory (hnone : d.find? a = .none) : Grows S d (d.put a .directory) := by
  have ha : a ≠ [] := by
    rintro rfl
    cases hnone
  refine ⟨rfl, fun b hb => ?_, fun b c hb => ⟨c, ?_, .inr rfl⟩, fun b hb _ => ?_⟩
  · rw [find?_put ha]
    split
    · rfl
    · exact hb
  · have hba : b ≠ a := by
      rintro rfl
      rw [hnone] at hb
      cases hb
    rw [find?_put ha, if_neg hba]
    exact hb
  · rw [find?_put ha]
    split
    · exact .inr rfl
    · exact .inl hb

/-- A file put where one may be put and no directory is. -/
theorem put_file (hS : S a) (hdir : d.find? a ≠ some .directory) (c : Text.Bytes) :
    Grows S d (d.put a (.file c)) := by
  have ha : a ≠ [] := by
    rintro rfl
    exact hdir rfl
  refine ⟨rfl, fun b hb => ?_, fun b c' hb => ?_, fun b hb hnot => ?_⟩
  · have hba : b ≠ a := fun h => hdir (h ▸ hb)
    rw [find?_put ha, if_neg hba]
    exact hb
  · rw [find?_put ha]
    split
    · next h => exact ⟨c, rfl, .inl (h ▸ hS)⟩
    · exact ⟨c', hb, .inr rfl⟩
  · have hba : b ≠ a := fun h => hnot (h ▸ hS)
    rw [find?_put ha, if_neg hba]
    exact .inl hb

theorem start (h : Grows S d d') (p : Path) : d'.start p = d.start p := by
  rw [Disk.start, h.here, Disk.start]

theorem place (h : Grows S d d') (p : Path) : d'.place p = d.place p := by
  rw [Disk.place, h.start, Disk.place]

/-- A walk that goes through before goes through after. -/
theorem walk (h : Grows S d d') {segments : List (List Char)} (hw : d.walk a segments = .ok b) :
    d'.walk a segments = .ok b := by
  induction segments generalizing a with
  | nil => exact hw
  | cons s segments ih =>
    obtain ⟨c, hstep, hrest⟩ := walk_cons_eq_ok_iff.1 hw
    have hdir := (step_eq_ok hstep).1
    refine walk_cons_eq_ok_iff.2 ⟨c, ?_, ih hrest⟩
    rw [step_congr ((h.directory a hdir).trans hdir.symm), hstep]

/-- A walk that goes through after only, without going up, comes to where nothing was. -/
theorem walk_back (htree : d.IsTree) (h : Grows S d d') {segments : List (List Char)}
    (hup : ['.', '.'] ∉ segments) (hw : d'.walk a segments = .ok b) :
    d.walk a segments = .ok b ∨ d.find? b = .none := by
  induction segments generalizing a with
  | nil => exact .inl hw
  | cons s segments ih =>
    obtain ⟨c, hstep, hrest⟩ := walk_cons_eq_ok_iff.1 hw
    have hdir := (step_eq_ok hstep).1
    cases ha : d.find? a with
    | none =>
      -- then there was nothing at the end of the walk, either
      obtain ⟨names, hnames⟩ := exists_foldl_follow hup a
      refine .inr ?_
      rw [walk_eq_ok hw, hnames]
      exact htree.find?_append ha names
    | some x =>
      cases x with
      | file content =>
        obtain ⟨_, hfile, -⟩ := h.file a content ha
        rw [hdir] at hfile
        cases hfile
      | directory =>
        rw [step_congr (hdir.trans ha.symm)] at hstep
        rcases ih (fun hmem => hup (List.mem_cons_of_mem _ hmem)) hrest with hback | hnone
        · exact .inl (walk_cons_eq_ok_iff.2 ⟨c, hstep, hback⟩)
        · exact .inr hnone

theorem locate (h : Grows S d d') (hl : d.locate p = .ok a) : d'.locate p = .ok a := by
  obtain ⟨hvet, hwalk⟩ := locate_eq_ok_iff.1 hl
  rw [← h.start] at hwalk
  exact locate_eq_ok_iff.2 ⟨hvet, h.walk hwalk⟩

theorem locate_back (htree : d.IsTree) (h : Grows S d d') (hup : ['.', '.'] ∉ p.segments)
    (hl : d'.locate p = .ok a) : d.locate p = .ok a ∨ d.find? a = .none := by
  obtain ⟨hvet, hwalk⟩ := locate_eq_ok_iff.1 hl
  rw [h.start] at hwalk
  rcases h.walk_back htree hup hwalk with hback | hnone
  · exact .inl (locate_eq_ok_iff.2 ⟨hvet, hback⟩)
  · exact .inr hnone

/-- What stands at a path still stands there. -/
theorem exists? (h : Grows S d d') (hp : d.exists? p = true) : d'.exists? p = true := by
  obtain ⟨a, hl, hfind⟩ := exists?_eq_true_iff.1 hp
  refine exists?_eq_true_iff.2 ⟨a, h.locate hl, ?_⟩
  cases ha : d.find? a with
  | none =>
    rw [ha] at hfind
    cases hfind
  | some x =>
    cases x with
    | file c =>
      obtain ⟨c', hc', -⟩ := h.file a c ha
      rw [hc']
      rfl
    | directory =>
      rw [h.directory a ha]
      rfl

theorem contentAt (h : Grows S d d') (hS : ¬ S a) : d'.contentAt a = d.contentAt a := by
  unfold Disk.contentAt
  cases ha : d.find? a with
  | none =>
    rcases h.none a ha hS with hnone | hdir
    · rw [hnone]
    · rw [hdir]
      rfl
  | some x =>
    cases x with
    | file c =>
      obtain ⟨c', hc', hput | rfl⟩ := h.file a c ha
      · exact absurd hput hS
      · rw [hc']
    | directory => rw [h.directory a ha]

/-- A file that was found is found as it was, unless one may have been put at its place. -/
theorem read_eq_some (h : Grows S d d') (hS : ¬ S (d.place p)) {content : Text.Bytes}
    (hread : (d.read p).toOption = some content) : (d'.read p).toOption = some content := by
  rw [read_toOption] at hread ⊢
  cases hl : d.locate p with
  | error err =>
    rw [hl] at hread
    cases hread
  | ok a =>
    have hplace := locate_eq_place hl
    rw [hl] at hread
    rw [h.locate hl]
    exact (h.contentAt (hplace ▸ hS)).trans hread

theorem read_eq_ok (h : Grows S d d') (hS : ¬ S (d.place p)) {content : Text.Bytes}
    (hread : d.read p = .ok content) : d'.read p = .ok content :=
  eq_ok_of_toOption (h.read_eq_some hS (congrArg Except.toOption hread))

/-- Reading a steady path finds what it found, unless a file may have been put at its place. -/
theorem read (htree : d.IsTree) (h : Grows S d d') (hsteady : d.Steady p) (hS : ¬ S (d.place p)) :
    (d'.read p).toOption = (d.read p).toOption := by
  rw [read_toOption, read_toOption]
  cases hl : d.locate p with
  | ok a =>
    have hplace := locate_eq_place hl
    rw [h.locate hl]
    exact h.contentAt (hplace ▸ hS)
  | error err =>
    obtain ⟨a, ha⟩ | hup := hsteady
    · rw [hl] at ha
      cases ha
    · cases hl' : d'.locate p with
      | error err' => rfl
      | ok a =>
        -- the way there was made in between, so that nothing was there before
        obtain hback | hnone := h.locate_back htree hup hl'
        · rw [hl] at hback
          cases hback
        · have hplace : a = d.place p := (locate_eq_place hl').trans (h.place p)
          show d'.contentAt a = .none
          rw [h.contentAt (hplace ▸ hS), Disk.contentAt, hnone]
          rfl

end Grows

/-! ## What grows a disk -/

/-- Only empty segments are left out at the end of a path. -/
theorem exists_firmSegments (p : Path) :
    ∃ ends, p.segments = p.firmSegments ++ ends ∧ ∀ s ∈ ends, s.isEmpty = true := by
  refine ⟨(p.segments.reverse.takeWhile (·.isEmpty)).reverse, ?_, fun s hs => ?_⟩
  · rw [Path.firmSegments, ← List.reverse_append, List.takeWhile_append_dropWhile,
      List.reverse_reverse]
  · exact List.all_eq_true.1 List.all_takeWhile s (List.mem_reverse.1 hs)

/-- The trailing separators of a path lead nowhere. -/
theorem foldl_follow_firmSegments (p : Path) (a : Place) :
    p.firmSegments.foldl Place.follow a = p.segments.foldl Place.follow a := by
  have hidle : ∀ (ss : List (List Char)) (b : Place), (∀ s ∈ ss, s.isEmpty = true) →
      ss.foldl Place.follow b = b := by
    intro ss b hss
    induction ss with
    | nil => rfl
    | cons s ss ih =>
      have hs : Path.idle s = true := by simp [Path.idle, hss s List.mem_cons_self]
      rw [List.foldl_cons, Place.follow, if_pos hs]
      exact ih fun t ht => hss t (List.mem_cons_of_mem _ ht)
  obtain ⟨ends, hsplit, hends⟩ := exists_firmSegments p
  conv => rhs; rw [hsplit, List.foldl_append]
  exact (hidle _ _ hends).symm

/-- The place that is given a name is the one that the path names. -/
theorem target_eq_ok (h : d.target p = .ok (some a)) : a = d.place p := by
  unfold target at h
  obtain ⟨-, -, h⟩ := except_bind_eq_ok_iff.1 h
  split at h
  · cases h
  · next s hlast =>
    obtain ⟨c, hwalk, h⟩ := except_bind_eq_ok_iff.1 h
    obtain ⟨b, hstep, h⟩ := except_bind_eq_ok_iff.1 h
    have hab : a = b := by
      split at h <;> cases h
      rfl
    obtain ⟨-, hb⟩ := step_eq_ok hstep
    obtain ⟨firm, hfirm⟩ := List.getLast?_eq_some_iff.1 hlast
    rw [hfirm, List.dropLast_concat] at hwalk
    rw [place, ← foldl_follow_firmSegments, hfirm, List.foldl_append, ← walk_eq_ok hwalk, hab, hb]
    rfl

theorem Grows.makeDirectory (h : d.makeDirectory p = .ok d') : Grows S d d' := by
  unfold Disk.makeDirectory at h
  obtain ⟨a, -, h⟩ := except_bind_eq_ok_iff.1 h
  split at h
  · cases h
  · split at h
    · cases h
    · next hnone =>
      cases h
      exact .put_directory (by simpa using hnone)

/-- Directories are only added, also where not all of them can be made. -/
theorem Grows.makeFrom (d : Disk) (ps : List Path) : Grows S d (d.makeFrom ps).2 := by
  induction ps with
  | nil => exact .refl
  | cons p ps ih =>
    unfold Disk.makeFrom
    split
    · exact .refl
    · split
      · next hmade => exact .makeDirectory hmade
      · split
        · next hbelow =>
          rw [hbelow] at ih
          exact ih
        · next hbelow =>
          rw [hbelow] at ih
          split
          · next hmade => exact ih.trans (.makeDirectory hmade)
          · exact ih
      · exact .refl

/-- A file is put where the path names a place, unless a directory stands there. -/
theorem install_eq_ok_iff {content : Text.Bytes} :
    d.install p content = .ok d' ↔ isImpossible p = false ∧ ∃ a, d.target p = .ok (some a) ∧
      p.toList.getLast? ≠ some '/' ∧ d.find? a ≠ some .directory ∧
      d' = d.put a (.file content) := by
  unfold Disk.install
  dsimp only
  cases isImpossible p with
  | true =>
    constructor
    · intro h
      cases h
    · rintro ⟨h, -⟩
      cases h
  | false =>
    rw [if_neg Bool.false_ne_true, except_bind_eq_ok_iff]
    constructor
    · rintro ⟨o, htarget, h⟩
      cases o with
      | none => cases h
      | some a =>
        dsimp only at h
        split at h
        · cases h
        · next hlast =>
          split at h
          · cases h
          · next hdir =>
            cases h
            exact ⟨rfl, a, htarget, hlast, hdir, rfl⟩
    · rintro ⟨-, a, htarget, hlast, hdir, rfl⟩
      exact ⟨some a, htarget, (if_neg hlast).trans (if_neg hdir)⟩

theorem Grows.install (hS : S (d.place p)) {content : Text.Bytes}
    (h : d.install p content = .ok d') : Grows S d d' := by
  obtain ⟨-, a, htarget, -, hdir, rfl⟩ := install_eq_ok_iff.1 h
  exact .put_file ((target_eq_ok htarget).symm ▸ hS) hdir content

end

end Disk

/-! ## Runs that write files -/

open Disk Effect

variable {S : Place → Prop} {d : Disk}

/-- What is read off the disk is at hand for the task that follows. -/
theorem Work.query_bind {α β : Type} {f : Disk → Except Error α} {a : α} (h : f d = .ok a)
    (g : α → Work β) : (Work.query f >>= g) d = g a d := by
  rw [bind_eq, Work.query, h]

/-- Two tasks in a row make a disk grow when each does. -/
theorem Work.bind_grows {α β : Type} {x : Work α} {f : α → Work β} (hx : Grows S d (x d).2)
    (hf : ∀ a, Grows S (x d).2 (f a (x d).2).2) : Grows S d ((x >>= f) d).2 := by
  rw [bind_eq]
  rcases hxd : x d with ⟨_ | a, d'⟩
  · rw [hxd] at hx
    exact hx
  · rw [hxd] at hx hf
    exact hx.trans (hf a)

theorem prepareOutput_grows (output : Path) : Grows S d (prepareOutput output d).2 :=
  .makeFrom d _

theorem installOutput_grows {output : Path} (lines : List String) (hS : S (d.place output)) :
    Grows S d (installOutput output lines d).2 := by
  unfold installOutput
  split
  · next hput => exact .install hS hput
  · exact .refl

/-- A run makes directories and puts its output into place, and does no more when it fails. -/
theorem Workshop.generate_grows (w : Workshop) (q : Request) (now : Moment)
    (hS : S (d.place q.output)) : Grows S d (w.generate q now d).2 := by
  have hprepare : Grows S d (prepareOutput q.output d).2 := prepareOutput_grows q.output
  have hS' : S ((prepareOutput q.output d).2.place q.output) := by rwa [hprepare.place]
  refine Work.bind_grows .refl fun source => Work.bind_grows hprepare fun _ => ?_
  refine Work.bind_grows .refl fun d' => Work.bind_grows .refl fun report => ?_
  exact Work.bind_grows (installOutput_grows _ hS') fun _ => .refl

end Stencil
