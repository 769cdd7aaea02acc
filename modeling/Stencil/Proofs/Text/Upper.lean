import Mathlib.Data.List.DropRight
import Stencil.Text.Folding

/-!
# Names in upper case

Upper case changes the ASCII letters only, so that what is decided for the ASCII characters holds of
all (`toUpper_cases`). It makes no blank of what is none, and trimming leaves nothing to trim: the
key of a name is its own key (`triggerKey_triggerKey`).
-/

namespace Stencil.Text

/-! ## Characters -/

/-- A relation of every character to its capital: it has to hold for ASCII, and of the characters
that are their own capitals. -/
theorem toUpper_cases {p : Char → Char → Prop}
    (hascii : ∀ n < 128, p (Char.ofNat n) (Char.ofNat n).toUpper)
    (hother : ∀ c : Char, c.toUpper = c → p c c) (c : Char) : p c c.toUpper := by
  by_cases hlow : c.toNat < 128
  · have hc := hascii c.toNat hlow
    rwa [Char.ofNat_toNat] at hc
  · have hletter : ¬ ('a'.val ≤ c.val ∧ c.val ≤ 'z'.val) := fun h =>
      hlow (Nat.lt_of_le_of_lt (UInt32.le_iff_toNat_le.1 h.2) (by decide))
    have hsame : c.toUpper = c := dif_neg hletter
    rw [hsame]
    exact hother c hsame

theorem toUpper_toUpper (c : Char) : c.toUpper.toUpper = c.toUpper :=
  toUpper_cases (p := fun _ d => d.toUpper = d) (by decide) (fun _ => id) c

theorem isBlank_toUpper (c : Char) : isBlank c.toUpper = isBlank c :=
  toUpper_cases (p := fun c d => isBlank d = isBlank c) (by decide) (fun _ _ => rfl) c

theorem isAlpha_toUpper (c : Char) : c.toUpper.isAlpha = c.isAlpha :=
  toUpper_cases (p := fun c d => d.isAlpha = c.isAlpha) (by decide) (fun _ _ => rfl) c

theorem isAlphanum_toUpper (c : Char) : c.toUpper.isAlphanum = c.isAlphanum :=
  toUpper_cases (p := fun c d => d.isAlphanum = c.isAlphanum) (by decide) (fun _ _ => rfl) c

/-! ## Keys -/

theorem upper_upper (s : String) : upper (upper s) = upper s := by
  rw [upper, toList_upper, List.map_map, upper]
  exact congrArg String.ofList (List.map_congr_left fun c _ => toUpper_toUpper c)

/-- Blanks are blanks in upper case, -/
theorem dropBlanks_map_toUpper (cs : List Char) :
    dropBlanks (cs.map Char.toUpper) = (dropBlanks cs).map Char.toUpper := by
  have hblank : isBlank ∘ Char.toUpper = isBlank := funext isBlank_toUpper
  rw [dropBlanks, dropEndBlanks, List.dropWhile_map, hblank, ← List.map_reverse,
    List.dropWhile_map, hblank, ← List.map_reverse]
  rfl

/-- and trimming leaves nothing to trim. -/
theorem dropBlanks_dropBlanks (cs : List Char) : dropBlanks (dropBlanks cs) = dropBlanks cs := by
  have hend : dropBlanks cs = (cs.dropWhile isBlank).rdropWhile isBlank := rfl
  have hfront : (dropBlanks cs).dropWhile isBlank = dropBlanks cs := by
    have hhead := List.head?_dropWhile_not isBlank cs
    have hleading := List.rdropWhile_prefix isBlank (cs.dropWhile isBlank)
    rw [← hend] at hleading
    cases hdropped : dropBlanks cs with
    | nil => rfl
    | cons c ds =>
      obtain ⟨rest, hrest⟩ := hdropped ▸ hleading
      rw [← hrest] at hhead
      exact List.dropWhile_cons_of_neg (Bool.eq_false_iff.1 hhead)
  rw [dropBlanks, hfront, hend]
  exact List.rdropWhile_idempotent isBlank _

/-- A key is its own key. -/
theorem triggerKey_triggerKey (name : String) : triggerKey (triggerKey name) = triggerKey name := by
  have htrim : trim (triggerKey name) = triggerKey name := by
    rw [trim, triggerKey, toList_upper, trim, String.toList_ofList, dropBlanks_map_toUpper,
      dropBlanks_dropBlanks, upper, String.toList_ofList]
  rw [triggerKey, htrim, triggerKey, upper_upper]

end Stencil.Text
