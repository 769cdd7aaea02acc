import Stencil.Proofs.Project.Fresh

/-!
# Saved ledgers

A ledger that was saved is read back as far as its text can be (`Project.ledger_of_save`), and
saving it again changes nothing (`Ledger.save_again`).
-/

namespace Stencil

open Disk Effect

namespace Ledger

variable {l : Ledger} {d after : Disk} {dir : Path}

/-- The characters of the text are those that the document is written from. -/
theorem toList_text (l : Ledger) :
    l.text.toList = preamble.toList ++ Yaml.Block.entriesText 0
      [("outputs", l.outputs.toBlock OutputRecord.toBlock), ("tool_version", .text l.toolVersion)] := by
  rw [text, Yaml.Block.document, String.toList_append, String.toList_ofList]

theorem save_eq_ok_iff : l.save dir d = (.ok (), after) ↔
    ∃ made, d.makeDirectories dir = (.ok (), made) ∧
      made.write (dir.join ledgerFileName) (Text.encode l.text) = .ok after := by
  unfold save
  rcases d.makeDirectories dir with ⟨cause | ⟨⟨⟩⟩, made⟩
  · exact ⟨nofun, fun ⟨_, hmade, _⟩ => nomatch hmade⟩
  · dsimp only
    cases hwritten : made.write (dir.join ledgerFileName) (Text.encode l.text) with
    | error cause =>
      refine ⟨nofun, fun ⟨made', hmade, h⟩ => ?_⟩
      cases hmade
      rw [hwritten] at h
      cases h
    | ok last =>
      constructor
      · intro h
        cases h
        exact ⟨made, rfl, hwritten⟩
      · rintro ⟨made', hmade, h⟩
        cases hmade
        rw [hwritten] at h
        cases h
        rfl

/-- Saving makes directories and puts one file into place. -/
theorem save_grows (h : l.save dir d = (.ok (), after)) :
    Grows (· = d.place (dir.join ledgerFileName)) d after := by
  obtain ⟨made, hmade, hwritten⟩ := save_eq_ok_iff.1 h
  have hgrows : Grows (· = d.place (dir.join ledgerFileName)) d (d.makeDirectories dir).2 :=
    .makeFrom d _
  rw [hmade] at hgrows
  exact hgrows.trans (.write (hgrows.place _) hwritten)

/-- The file of a saved ledger has its text. -/
theorem read_of_save (h : l.save dir d = (.ok (), after)) :
    after.read (dir.join ledgerFileName) = .ok (Text.encode l.text) := by
  obtain ⟨made, -, hwritten⟩ := save_eq_ok_iff.1 h
  exact read_of_write hwritten

/-- Saving a ledger where it was saved changes nothing. -/
theorem save_again (h : l.save dir d = (.ok (), after)) :
    ∃ later, l.save dir after = (.ok (), later) ∧ ∀ a, later.find? a = after.find? a := by
  obtain ⟨made, -, hwritten⟩ := save_eq_ok_iff.1 h
  obtain ⟨a, hl, hfile⟩ := read_eq_ok_iff.1 (read_of_write hwritten)
  -- the directory of the file is there by now
  have hmade : after.makeDirectories dir = (.ok (), after) := by
    cases hdir : dir.isEmpty with
    | true =>
      rw [makeDirectories, Path.ancestors, makeFrom, if_pos hdir]
    | false =>
      exact makeDirectories_of_isDirectory
        (isDirectory_of_locate_join (by decide +kernel) hdir hl)
  have hagain : after.write (dir.join ledgerFileName) (Text.encode l.text) =
      .ok (after.put a (.file (Text.encode l.text))) :=
    write_eq_ok_iff.2 ⟨a, hl, by rw [hfile]; rintro ⟨⟩, rfl⟩
  refine ⟨_, save_eq_ok_iff.2 ⟨after, hmade, hagain⟩, fun b => ?_⟩
  have ha : a ≠ [] := by
    rintro rfl
    cases hfile
  rw [find?_put ha]
  split
  · next hb => rw [hb, hfile]
  · rfl

end Ledger

namespace Project

/-- The file of the ledger. -/
def ledgerPath (p : Project) : Path := p.outputDir.join ledgerFileName

/-- A ledger that was saved is the one of the project. -/
theorem ledger_of_save {p : Project} {l : Ledger} {d after : Disk}
    (hyaml : Ledger.ofYaml l.text = .ok l) (h : l.save p.outputDir d = (.ok (), after)) :
    p.ledger after = .ok l := ledger_of_read (Ledger.read_of_save h) hyaml

end Project

end Stencil
