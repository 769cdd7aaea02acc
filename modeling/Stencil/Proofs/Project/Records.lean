import Mathlib.Data.List.Forall2
import Stencil.Proofs.Path.Below
import Stencil.Proofs.Project.Regen

/-!
# The records of outputs

A ledger files the record of an output under its text below the output directory, with `/` for `\`.
Two outputs have one record just if these texts are the same but for the two separators
(`keyWithin_eq_iff`), and they are one file just if the texts have the same components. The two
differ: a name may hold a `\`, and a path may be written with separators and `.` that count for
nothing. `records_apart_iff` says what each of them needs, and that neat paths without a `\` are
told apart by their records as they are by their components.
-/

namespace Stencil

namespace Path

variable {p q u v base : Path}

/-- A character that separates names in some system. -/
def IsSlash (c : Char) : Prop := c = '/' ∨ c = '\\'

instance (c : Char) : Decidable (IsSlash c) := inferInstanceAs (Decidable (_ ∨ _))

/-- Texts that are the same but for `\` in the place of `/`. -/
def SameButSlashes (u v : Path) : Prop :=
  List.Forall₂ (fun c d => c = d ∨ IsSlash c ∧ IsSlash d) u.toList v.toList

/-- A character in a key. -/
def keyChar (c : Char) : Char := if c = '\\' then '/' else c

theorem keyChar_eq_iff {c d : Char} : keyChar c = keyChar d ↔ c = d ∨ IsSlash c ∧ IsSlash d := by
  unfold keyChar IsSlash
  by_cases hc : c = '\\'
  · by_cases hd : d = '\\'
    · simp [hc, hd]
    · simp [hc, hd, eq_comm]
  · by_cases hd : d = '\\'
    · simp [hc, hd]
    · rw [if_neg hc, if_neg hd]
      refine ⟨.inl, ?_⟩
      rintro (rfl | ⟨hc' | hc', hd' | hd'⟩)
      · rfl
      · rw [hc', hd']
      · exact absurd hd' hd
      · exact absurd hc' hc
      · exact absurd hc' hc

/-- Keys are the same just if the rests below the directory are, but for the separators. -/
theorem keyWithin_eq_iff :
    keyWithin base p = keyWithin base q ↔ SameButSlashes (below base p) (below base q) := by
  have hkey (p : Path) : keyWithin base p = String.ofList ((below base p).toList.map keyChar) := rfl
  rw [hkey, hkey, String.ofList_inj, ← List.forall₂_eq_eq_eq, List.forall₂_map_left_iff,
    List.forall₂_map_right_iff, SameButSlashes]
  simp only [keyChar_eq_iff]

theorem SameButSlashes.refl (u : Path) : SameButSlashes u u :=
  List.forall₂_same.2 fun _ _ => .inl rfl

/-- Without a `\` nothing is the same but what is the same. -/
theorem SameButSlashes.eq (h : SameButSlashes u v) (hu : '\\' ∉ u.toList) (hv : '\\' ∉ v.toList) :
    u = v := by
  rw [SameButSlashes] at h
  apply String.toList_injective
  generalize u.toList = cs at *
  generalize v.toList = ds at *
  induction h with
  | nil => rfl
  | @cons c d cs ds hcd _ ih =>
    obtain ⟨hc, hcs⟩ := not_or.1 (List.mem_cons.not.1 hu)
    obtain ⟨hd, hds⟩ := not_or.1 (List.mem_cons.not.1 hv)
    rw [ih hcs hds]
    rcases hcd with rfl | ⟨hc', hd'⟩
    · rfl
    · rw [hc'.resolve_right (Ne.symm hc), hd'.resolve_right (Ne.symm hd)]

end Path

namespace Ledger

open Stencil.Path

variable {dir p q : Path}

/-- **What records tell of two outputs** in one directory. The outputs share a record just if what
they have below the directory is written in one way, but for `\` in the place of `/`: what is noted
of the one is then found for the other, and else it leaves what is found as it is. They are one file
just if what they have below the directory has the same components. So outputs without a `\` that
share a record are one file, and one file that is written neatly has one record. -/
theorem records_apart_iff (hp : dir.components <+: p.components)
    (hq : dir.components <+: q.components) :
    let u := below dir p
    let v := below dir q
    Rest dir p u ∧ Rest dir q v ∧
      (keyWithin dir p = keyWithin dir q ↔ SameButSlashes u v) ∧
      (SameButSlashes u v → ∀ (l : Ledger) r, (l.note dir p r).find? dir q = some r) ∧
      (¬ SameButSlashes u v → ∀ (l : Ledger) r, (l.note dir p r).find? dir q = l.find? dir q) ∧
      (p.components = q.components ↔ u.components = v.components) ∧
      ('\\' ∉ u.toList → '\\' ∉ v.toList → keyWithin dir p = keyWithin dir q →
        p.components = q.components) ∧
      (u.Neat → v.Neat → p.components = q.components → keyWithin dir p = keyWithin dir q) := by
  intro u v
  have hkey : keyWithin dir p = keyWithin dir q ↔ SameButSlashes u v := keyWithin_eq_iff
  have hfile : p.components = q.components ↔ u.components = v.components :=
    components_eq_iff_below hp hq
  refine ⟨below_rest hp, below_rest hq, hkey, fun hsame l r => ?_, fun hother l r => ?_, hfile,
    fun hu hv h => ?_, fun hu hv h => ?_⟩
  · rw [find?_note, if_pos (hkey.2 hsame).symm]
  · rw [find?_note, if_neg fun h => hother (hkey.1 h.symm)]
  · exact hfile.2 (congrArg components ((hkey.1 h).eq hu hv))
  · have hequal : u = v := hu.eq_of_components hv (hfile.1 h)
    exact hkey.2 (hequal ▸ SameButSlashes.refl u)

/-- What counts for nothing in front of the rest and behind it does not tell outputs apart. -/
theorem spelled_one_record :
    Path.components "/out" <+: Path.components "/out/x/A.cbl" ∧
      Path.components "/out" <+: Path.components "//out/.//x/A.cbl/" ∧
      keyWithin "/out" "/out/x/A.cbl" = keyWithin "/out" "//out/.//x/A.cbl/" ∧
      ∀ (l : Ledger) r,
        (l.note "/out" "/out/x/A.cbl" r).find? "/out" "//out/.//x/A.cbl/" = some r := by
  have hp : Path.components "/out" <+: Path.components "/out/x/A.cbl" := by decide +kernel
  have hq : Path.components "/out" <+: Path.components "//out/.//x/A.cbl/" := by decide +kernel
  obtain ⟨-, -, hkey, hfound, -, -, -, hneat⟩ := records_apart_iff hp hq
  have hsame := hneat (neat_of_named (by decide +kernel)) (neat_of_named (by decide +kernel))
    (by decide +kernel)
  exact ⟨hp, hq, hsame, hfound (hkey.1 hsame)⟩

/-- Two outputs in a directory may have one record, and one output two. -/
theorem spelled_records :
    (∀ p ∈ ["/out/a\\B.cbl", "/out/a/B.cbl", "/out/a//B.cbl"],
        Path.components "/out" <+: Path.components p) ∧
      (keyWithin "/out" "/out/a\\B.cbl" = keyWithin "/out" "/out/a/B.cbl" ∧
        Path.components "/out/a\\B.cbl" ≠ Path.components "/out/a/B.cbl") ∧
      (keyWithin "/out" "/out/a//B.cbl" ≠ keyWithin "/out" "/out/a/B.cbl" ∧
        Path.components "/out/a//B.cbl" = Path.components "/out/a/B.cbl") := by
  decide +kernel

end Ledger

end Stencil
