import Stencil.Proofs.Disk.Whole

/-!
# Runs on earlier disks

A run that came to its end on a disk that had grown comes to the same end on the disk before
(`Workshop.Writes.earlier`), as long as its templates were there and are not reached through
directories that only came later (`Disk.Anchored`). The directories that its output needs, and that
it found on the later disk, it makes on the earlier one (`Disk.makeDirectories_of_grows`): what
stands on the way to a directory was a directory or was not there.
-/

namespace Stencil

open Effect

namespace Disk

variable {S S' : Place → Prop} {d m made : Disk} {a b c : Place} {p q : Path} {s : List Char}
  {front ends ss : List (List Char)} {content : Text.Bytes}

/-! ## Disks that are to grow -/

theorem Grows.mono (hS : ∀ a, S a → S' a) (h : Grows S d m) : Grows S' d m :=
  ⟨h.here, h.directory, fun a c ha => (h.file a c ha).imp fun _ hc => hc.imp_right
    (·.imp_left (hS a)), fun a ha hnot => h.none a ha fun hSa => hnot (hS a hSa)⟩

/-- A directory was one before, or nothing was there. -/
theorem Grows.directory_back (h : Grows S d m) (hm : m.find? a = some .directory) :
    d.find? a = some .directory ∨ d.find? a = .none := by
  cases ha : d.find? a with
  | none => exact .inr rfl
  | some x =>
    cases x with
    | directory => exact .inl rfl
    | file content =>
      obtain ⟨_, hfile, -⟩ := h.file a content ha
      rw [hm] at hfile
      cases hfile

/-- A directory that is to come may be made. -/
theorem Grows.put_between (h : Grows S d m) (hnone : d.find? a = .none)
    (hm : m.find? a = some .directory) : Grows S (d.put a .directory) m := by
  have ha : a ≠ [] := by
    rintro rfl
    cases hnone
  refine ⟨h.here, fun b hb => ?_, fun b c hb => ?_, fun b hb hS => ?_⟩
  · rw [find?_put ha] at hb
    split at hb
    · next hba => rw [hba, hm]
    · exact h.directory b hb
  · rw [find?_put ha] at hb
    split at hb
    · cases hb
    · exact h.file b c hb
  · rw [find?_put ha] at hb
    split at hb
    · cases hb
    · exact h.none b hb hS

/-- A walk that goes through after went through before, or came to where nothing was. -/
theorem Grows.walk_early (h : Grows S d m) (hw : m.walk a ss = .ok b) :
    d.walk a ss = .ok b ∨ d.walk a ss = .error .notFound := by
  induction ss generalizing a with
  | nil => exact .inl hw
  | cons s ss ih =>
    obtain ⟨c, hstep, hrest⟩ := walk_cons_eq_ok_iff.1 hw
    have hdir := (step_eq_ok hstep).1
    rcases h.directory_back hdir with ha | ha
    · rw [step_congr (hdir.trans ha.symm)] at hstep
      rcases ih hrest with hback | hback
      · exact .inl (walk_cons_eq_ok_iff.2 ⟨c, hstep, hback⟩)
      · refine .inr ?_
        rw [Disk.walk, List.foldlM_cons, hstep]
        exact hback
    · refine .inr ?_
      rw [Disk.walk, List.foldlM_cons, step, ha]
      rfl

/-! ## Trees -/

/-- What stands above a directory is a directory. -/
theorem IsTree.find?_dropLast (h : d.IsTree) (ha : d.find? a = some .directory) :
    d.find? a.dropLast = some .directory := by
  rcases List.eq_nil_or_concat a with rfl | ⟨b, n, rfl⟩
  · exact ha
  · rw [List.concat_eq_append] at ha ⊢
    rw [List.dropLast_concat]
    exact h b n (by rw [ha]; nofun)

/-- A directory in a directory leaves a tree a tree. -/
theorem IsTree.put_directory (h : d.IsTree) (hc : d.find? c = some .directory) (n : String) :
    (d.put (c ++ [n]) .directory).IsTree := by
  have hne : c ++ [n] ≠ [] := by simp
  intro b k hk
  rw [find?_put hne] at hk ⊢
  split
  · rfl
  · split at hk
    · next heq =>
      obtain ⟨rfl, -⟩ := List.append_inj' heq rfl
      exact hc
    · exact h b k hk

/-! ## Directories that are made on the earlier disk -/

/-- Every path starts from a directory. -/
theorem find?_start (hhere : d.find? d.here = some .directory) (p : Path) :
    d.find? (d.start p) = some .directory := by
  rw [start]
  split
  · rfl
  · exact hhere

theorem firmSegments_of_segments (hsegments : p.segments = front ++ [s])
    (hs : Path.idle s = false) : p.firmSegments = front ++ [s] := by
  have hempty : s.isEmpty = false := by
    refine Bool.eq_false_iff.2 fun h => ?_
    rw [Path.idle, h] at hs
    cases hs
  rw [Path.firmSegments, hsegments, List.reverse_concat,
    List.dropWhile_cons_of_neg (by simp [hempty]), List.reverse_cons, List.reverse_reverse]

/-- Where all but the last segment of a path lead to a directory, the directory that the path names
later is there, or can be made. -/
theorem makeDirectory_of_grows (htree : d.IsTree) (hgrows : Grows S d m)
    (hsegments : p.segments = front ++ [s]) (hs : Path.idle s = false)
    (hdir : m.isDirectory p = true) (hwalk : d.walk (d.start p) front = .ok c)
    (hc : d.find? c = some .directory) :
    d.isDirectory p = true ∨ ∃ made, d.makeDirectory p = .ok made ∧ made.IsTree ∧
      Grows S made m ∧ made.isDirectory p = true := by
  obtain ⟨b, hl, hb⟩ := isDirectory_iff.1 hdir
  obtain ⟨hvet, hw⟩ := locate_eq_ok_iff.1 hl
  rw [hsegments, hgrows.start] at hw
  obtain ⟨c', hfront, hrest⟩ := walk_append_eq_ok_iff.1 hw
  obtain rfl : c = c' := (walk_eq_ok hwalk).trans (walk_eq_ok hfront).symm
  obtain ⟨b', hstep, hnil⟩ := walk_cons_eq_ok_iff.1 hrest
  cases hnil
  rw [step_congr ((hgrows.directory c hc).trans hc.symm)] at hstep
  have hlocate : d.locate p = .ok b := by
    refine locate_eq_ok_iff.2 ⟨hvet, ?_⟩
    rw [hsegments]
    exact walk_append_eq_ok_iff.2 ⟨c, hwalk, walk_cons_eq_ok_iff.2 ⟨b, hstep, rfl⟩⟩
  rcases hgrows.directory_back hb with hthere | hnone
  · exact .inl (isDirectory_iff.2 ⟨b, hlocate, hthere⟩)
  · -- what is above a directory is there, so that the last segment is a name
    obtain ⟨-, hfollow⟩ := step_eq_ok hstep
    rw [Place.follow, if_neg (by simp [hs])] at hfollow
    have hup : (s == ['.', '.']) = false := by
      refine Bool.eq_false_iff.2 fun hup => ?_
      rw [if_pos hup] at hfollow
      rw [hfollow, htree.find?_dropLast hc] at hnone
      cases hnone
    rw [if_neg (by simp [hup])] at hfollow
    have hmade : d.makeDirectory p = .ok (d.put b .directory) := by
      rw [makeDirectory, target_of_locate hlocate, firmSegments_of_segments hsegments hs,
        List.getLast?_concat]
      simp only [hs, hup, Bool.or_self]
      exact if_neg (by rw [hnone]; simp)
    have hne : b ≠ [] := by
      rintro rfl
      cases hnone
    have hlater : Grows S d (d.put b .directory) := .put_directory hnone
    exact .inr ⟨_, hmade, hfollow ▸ htree.put_directory hc _, hgrows.put_between hnone hb,
      isDirectory_iff.2 ⟨b, hlater.locate hlocate, by rw [find?_put hne, if_pos rfl]⟩⟩

/-- Where they do not lead to one yet, the directory cannot be made before that. -/
theorem makeDirectory_notFound (hgrows : Grows S d m) (hsegments : p.segments = front ++ [s])
    (hs : Path.idle s = false) (hvet : vet p = .ok ())
    (hfront : m.walk (d.start p) front = .ok c) (hcm : m.find? c = some .directory)
    (hc : ¬ ∃ c, d.walk (d.start p) front = .ok c ∧ d.find? c = some .directory) :
    d.makeDirectory p = .error .notFound := by
  have hwalk : (d.walk (d.start p) front >>= fun c => d.step c s) = .error .notFound := by
    rcases hgrows.walk_early hfront with hwalk | hwalk
    · have hnone := (hgrows.directory_back hcm).resolve_left fun hdir => hc ⟨c, hwalk, hdir⟩
      rw [hwalk]
      show d.step c s = _
      rw [step, hnone]
    · rw [hwalk]
      rfl
  have htarget : d.target p = .error .notFound := by
    rw [target, hvet, firmSegments_of_segments hsegments hs, List.getLast?_concat,
      List.dropLast_concat]
    show (d.walk (d.start p) front >>= fun c => d.step c s >>= fun x => pure _) = _
    rw [← bind_assoc, hwalk]
    rfl
  rw [makeDirectory, htarget]
  rfl

/-- A directory that is there later can be made, with the directories above it that are not there
yet. The induction is on the number of segments that are not idle, which bounds that of the
directories. -/
theorem makeFrom_of_grows (hhere : d.find? d.here = some .directory) (htree : d.IsTree)
    (hgrows : Grows S d m) {n : Nat} (hn : (p.segments.filter (!Path.idle ·)).length < n)
    (htidy : p.Tidy) (hdir : m.isDirectory p = true) :
    ∃ made, d.makeFrom (p.ancestors n) = (.ok (), made) ∧ made.IsTree ∧ Grows S made m ∧
      made.isDirectory p = true := by
  induction n generalizing p with
  | zero => exact absurd hn (Nat.not_lt_zero _)
  | succ n ih =>
    have hstart := find?_start hhere p
    obtain ⟨b, hl, -⟩ := isDirectory_iff.1 hdir
    obtain ⟨hvet, hw⟩ := locate_eq_ok_iff.1 hl
    have hpath : p.isEmpty = false := by
      refine Bool.eq_false_iff.2 fun hempty => ?_
      rw [String.isEmpty_iff.1 hempty] at hvet
      cases hvet
    rw [hgrows.start] at hw
    rcases htidy with hidle | ⟨front, s, hsegments, hs⟩
    · -- the path names the directory that it starts from
      have hthere : d.isDirectory p = true := isDirectory_iff.2
        ⟨_, locate_eq_ok_iff.2 ⟨hvet, walk_of_idle hstart hidle⟩, hstart⟩
      exact ⟨d, makeFrom_of_isDirectory hthere, htree, hgrows, hthere⟩
    rw [hsegments] at hw
    obtain ⟨c, hfront, hrest⟩ := walk_append_eq_ok_iff.1 hw
    obtain ⟨_, hstep, -⟩ := walk_cons_eq_ok_iff.1 hrest
    have hcm := (step_eq_ok hstep).1
    by_cases hc : ∃ c, d.walk (d.start p) front = .ok c ∧ d.find? c = some .directory
    · obtain ⟨c, hwalk, hc⟩ := hc
      rcases makeDirectory_of_grows htree hgrows hsegments hs hdir hwalk hc with
        hthere | ⟨made, hmade, hgood⟩
      · exact ⟨d, makeFrom_of_isDirectory hthere, htree, hgrows, hthere⟩
      · refine ⟨made, ?_, hgood⟩
        rw [Path.ancestors, makeFrom, hpath, if_neg Bool.false_ne_true, hmade]
    -- else the directory above is made first, and has all that leads to the last segment
    have hnot := makeDirectory_notFound hgrows hsegments hs hvet hfront hcm hc
    have hidle : ¬ ∀ t ∈ front, Path.idle t = true := fun hidle =>
      hc ⟨_, walk_of_idle hstart hidle, hstart⟩
    obtain ⟨hleads, htidy⟩ := Path.ofLeading_leads_of_not_idle hsegments hidle
    have hn' : ((Path.ofLeading front).segments.filter (!Path.idle ·)).length < n :=
      Nat.lt_of_lt_of_le (hleads.length_filter_lt hsegments hs) (Nat.le_of_lt_succ hn)
    have hdir' : m.isDirectory (Path.ofLeading front) = true :=
      (isDirectory_iff_of_leads hleads hvet).2 ⟨c, by rwa [hgrows.start], hcm⟩
    obtain ⟨made, hmade, htree', hgrows', hthere⟩ := ih hn' htidy hdir'
    obtain ⟨c', hwalk, hc'⟩ := (isDirectory_iff_of_leads hleads hvet).1 hthere
    rw [Path.ancestors, Path.parent_of_segments hsegments hs (List.forall_mem_nil _), makeFrom,
      hpath, if_neg Bool.false_ne_true, hnot]
    simp only [hmade]
    rcases makeDirectory_of_grows htree' hgrows' hsegments hs hdir hwalk hc' with
      hthere' | ⟨last, hlast, hgood⟩
    · rw [makeDirectory_of_isDirectory hthere', hthere']
      exact ⟨made, rfl, htree', hgrows', hthere'⟩
    · rw [hlast]
      exact ⟨last, rfl, hgood⟩

/-- **What is a directory later can be made one.** -/
theorem makeDirectories_of_grows (hhere : d.find? d.here = some .directory) (htree : d.IsTree)
    (hgrows : Grows S d m) (htidy : p.Tidy) (hdir : m.isDirectory p = true) :
    ∃ made, d.makeDirectories p = (.ok (), made) ∧ made.IsTree ∧ Grows S made m ∧
      made.isDirectory p = true :=
  makeFrom_of_grows hhere htree hgrows (Nat.lt_succ_of_le p.length_filter_segments) htidy hdir

/-! ## Paths that lead through what was there -/

/-- A path goes up out of directories only that are there: its segments up to the last `..` lead
somewhere. -/
def Anchored (d : Disk) (p : Path) : Prop :=
  ∃ front rest a, p.segments = front ++ rest ∧ d.walk (d.start p) front = .ok a ∧
    ['.', '.'] ∉ rest

theorem anchored_of_not_mem (h : ['.', '.'] ∉ p.segments) : d.Anchored p :=
  ⟨[], p.segments, d.start p, rfl, rfl, h⟩

/-- What is read later by an anchored path was read before, unless a file may have come there. -/
theorem Grows.read_early (htree : d.IsTree) (h : Grows S d m) (hanchored : d.Anchored p)
    (hS : ¬ S (d.place p)) (hread : m.read p = .ok content) : d.read p = .ok content := by
  obtain ⟨front, rest, a, hsegments, hfront, hup⟩ := hanchored
  obtain ⟨b, hl, hfile⟩ := read_eq_ok_iff.1 hread
  obtain ⟨hvet, hwalk⟩ := locate_eq_ok_iff.1 hl
  have hplace : b = d.place p := (locate_eq_place hl).trans (h.place p)
  have hbefore : d.find? b = some (.file content) :=
    contentAt_eq_some_iff.1
      ((h.contentAt (hplace ▸ hS)).symm.trans (contentAt_eq_some_iff.2 hfile))
  rw [hsegments, h.start] at hwalk
  obtain ⟨a', hfront', hrest⟩ := walk_append_eq_ok_iff.1 hwalk
  obtain rfl : a = a' := (walk_eq_ok hfront).trans (walk_eq_ok hfront').symm
  rcases h.walk_back htree hup hrest with hback | hnone
  · refine read_eq_ok_iff.2 ⟨b, locate_eq_ok_iff.2 ⟨hvet, ?_⟩, hbefore⟩
    rw [hsegments]
    exact walk_append_eq_ok_iff.2 ⟨a, hfront, hback⟩
  · rw [hbefore] at hnone
    cases hnone

/-- A place that is given a name later is given it where the segments before the name lead to a
directory. -/
theorem target_of_grows (hgrows : Grows S d m) (h : m.target p = .ok (some a))
    (hfront : d.walk (d.start p) p.firmSegments.dropLast = .ok c)
    (hc : d.find? c = some .directory) : d.target p = .ok (some a) := by
  unfold target at h ⊢
  obtain ⟨⟨⟩, hvet, h⟩ := except_bind_eq_ok_iff.1 h
  refine except_bind_eq_ok_iff.2 ⟨(), hvet, ?_⟩
  split at h
  · cases h
  · next s hlast =>
    obtain ⟨c', hwalk, h⟩ := except_bind_eq_ok_iff.1 h
    rw [hgrows.start] at hwalk
    obtain rfl : c' = c := (walk_eq_ok hwalk).trans (walk_eq_ok hfront).symm
    rw [step_congr ((hgrows.directory c' hc).trans hc.symm)] at h
    exact except_bind_eq_ok_iff.2 ⟨c', hfront, h⟩

/-- Where a file is put into place later, its directory can be made, and it has its place there. -/
theorem exists_prepared (hhere : d.find? d.here = some .directory) (htree : d.IsTree)
    (hgrows : Grows S d m) (h : made.install p content = .ok m) :
    ∃ own, prepareOutput p d = (.ok (), own) ∧ own.IsTree ∧ Grows S own m ∧
      ∃ last, own.install p content = .ok last := by
  obtain ⟨b, hl, hfile⟩ := read_eq_ok_iff.1 (read_of_install h)
  obtain ⟨hvet, -⟩ := locate_eq_ok_iff.1 hl
  obtain ⟨hpossible, a, htarget, hlast, -, -⟩ := install_eq_ok_iff.1 h
  obtain ⟨s, ends, hname, hs⟩ := exists_endsIn_of_target htarget
  obtain ⟨own, hmade, htree', hlater, hdir⟩ := makeDirectories_of_grows hhere htree hgrows
    hname.tidy_directory (isDirectory_directory hname hl)
  obtain ⟨c, hwalk, hc⟩ := (isDirectory_directory_iff hname hvet).1 hdir
  have hplaced : own.target p = .ok (some b) := by
    refine target_of_grows hlater ?_ hwalk hc
    rw [target_of_locate hl, hs]
    simp [hname.name]
  have hnot : own.find? b ≠ some .directory := by
    intro hown
    rw [hlater.directory b hown] at hfile
    cases hfile
  refine ⟨own, ?_, htree', hlater, _,
    install_eq_ok_iff.2 ⟨hpossible, b, hplaced, hlast, hnot, rfl⟩⟩
  rw [prepareOutput, hmade]
  rfl

end Disk

/-! ## Earlier runs -/

open Disk

namespace Workshop

variable {S : Place → Prop} {w : Workshop} {q : Request} {now : Moment} {d d₁ after : Disk}
  {report : Report} {lines : List String}

/-- A run that comes to its end puts its output into place, and makes directories. -/
theorem Writes.grows (h : w.Writes q now d report lines after) (hown : S (d.place q.output)) :
    Grows S d after := by
  have hgrows := w.generate_grows q now hown
  rwa [generate_eq_ok_iff.2 ⟨lines, h⟩] at hgrows

/-- **A run that came to its end comes to it on the disk before.** The templates that it opened are
not where files may have been put since, and their paths go up out of directories only that were
there before, or that the run makes itself. It leaves them as they were. -/
theorem Writes.earlier (h : w.Writes q now d₁ report lines after) (hgrows : Grows S d d₁)
    (hhere : d.find? d.here = some .directory) (htree : d.IsTree) (hown : S (d.place q.output))
    (hsources : ∀ t, t = q.template ∨ t ∈ report.subTemplateNames →
      ¬ S (d.place (w.templateDir.join t)) ∧
        ∃ content, after.read (w.templateDir.join t) = .ok content)
    (htemplate : d.Anchored (w.templateDir.join q.template))
    (hfragments : ∀ t ∈ report.subTemplateNames,
      (prepareOutput q.output d).2.Anchored (w.templateDir.join t)) :
    ∃ alone, w.Writes q now d report lines alone ∧
      ∀ t, t = q.template ∨ t ∈ report.subTemplateNames →
        alone.read (w.templateDir.join t) = after.read (w.templateDir.join t) := by
  cases h with
  | @intro source made after sink found prepared ran installed =>
    have hmade : Grows S d₁ made := (prepared_grows prepared).mono nofun
    have hinstall : Grows S made after :=
      .install (by rwa [hmade.place, hgrows.place]) installed
    have hafter : Grows S d after := hgrows.trans (hmade.trans hinstall)
    obtain ⟨own, hprepared, htree', hlater, last, hinstalled⟩ :=
      exists_prepared hhere htree hafter installed
    rw [hprepared] at hfragments
    have hbefore : Grows S d own := (prepared_grows hprepared).mono nofun
    -- the templates are there without the directories that came later
    have htemplate' : ∀ content, after.read (w.templateDir.join q.template) = .ok content →
        d.read (w.templateDir.join q.template) = .ok content := fun content =>
      hafter.read_early htree htemplate (hsources _ (.inl rfl)).1
    have hthere : ∀ t, t = q.template ∨ t ∈ report.subTemplateNames → ∀ content,
        after.read (w.templateDir.join t) = .ok content →
        own.read (w.templateDir.join t) = .ok content := by
      rintro t (rfl | ht) content hcontent
      · exact hbefore.read_eq_ok (hsources _ (.inl rfl)).1 (htemplate' content hcontent)
      · refine hlater.read_early htree' (hfragments t ht) ?_ hcontent
        rw [hbefore.place]
        exact (hsources t (.inr ht)).1
    have hfound : (w.engine d).store q.template = .ok source := by
      obtain ⟨hS, content, hcontent⟩ := hsources _ (.inl rfl)
      exact (hmade.trans hinstall).templates_eq_ok (by rwa [hgrows.place]) found hcontent
        (htemplate' content hcontent)
    have hran : ((w.engine made).withStore (w.engine own).store).run q source now {} =
        (.ok report, sink) := by
      refine Engine.run_withStore ran fun t ht => ?_
      obtain ⟨hS, content, hcontent⟩ := hsources t (.inr ht)
      obtain ⟨opened, hopened⟩ := Engine.run_opened ran ht
      exact (hinstall.templates_eq_ok (by rwa [hmade.place, hgrows.place]) hopened hcontent
        (hthere t (.inr ht) content hcontent)).trans hopened.symm
    refine ⟨last, .intro hfound hprepared hran hinstalled, fun t ht => ?_⟩
    obtain ⟨hS, content, hcontent⟩ := hsources t ht
    have halone : Grows S own last := .install (by rwa [hbefore.place]) hinstalled
    rw [hcontent]
    exact halone.read_eq_ok (by rwa [hbefore.place]) (hthere t ht content hcontent)

end Workshop

end Stencil
