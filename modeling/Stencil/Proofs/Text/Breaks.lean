import Stencil.Emit.Fields
import Stencil.Proofs.Text.Utf8
import Stencil.Schema.Field
import Stencil.Text.Casing

/-!
# Texts without line breaks

Trimming, changing the case of letters and numbering make no line feed, so that the names which are
rendered for a column hold none when those of the column do not.
-/

namespace Stencil.Text

/-- The text is on one line. -/
def Unbroken (s : String) : Prop := '\n' ∉ s.toList

instance (s : String) : Decidable (Unbroken s) := inferInstanceAs (Decidable ('\n' ∉ s.toList))

@[simp]
theorem unbroken_append {s t : String} : Unbroken (s ++ t) ↔ Unbroken s ∧ Unbroken t := by
  rw [Unbroken, String.toList_append, List.mem_append, not_or, Unbroken, Unbroken]

@[simp]
theorem unbroken_ofList {cs : List Char} : Unbroken (String.ofList cs) ↔ '\n' ∉ cs := by
  rw [Unbroken, String.toList_ofList]

/-! ## Letters -/

/-- The code of a letter moved by the distance of the two cases is not that of the line feed. -/
theorem shifted_ne_break {v d : UInt32} {c : Char} (hlow : 65 ≤ v.toNat) (hhigh : v.toNat ≤ 122)
    (hd : d = 32 ∨ d = -32) (hc : c.val = v + d) : c ≠ '\n' := by
  rintro rfl
  have hsum : (v + d).toNat = 10 := congrArg UInt32.toNat hc.symm
  rcases hd with rfl | rfl <;> rw [UInt32.toNat_add] at hsum
  · have hdistance : (32 : UInt32).toNat = 32 := rfl
    omega
  · have hdistance : (-32 : UInt32).toNat = 4294967264 := rfl
    omega

theorem eq_break_of_toUpper {c : Char} (h : c.toUpper = '\n') : c = '\n' := by
  unfold Char.toUpper at h
  split at h
  · next hc =>
    have hlow : 97 ≤ c.val.toNat := UInt32.le_iff_toNat_le.1 hc.1
    have hhigh : c.val.toNat ≤ 122 := UInt32.le_iff_toNat_le.1 hc.2
    exact absurd h (shifted_ne_break (by omega) hhigh (.inr rfl) rfl)
  · exact h

theorem eq_break_of_toLower {c : Char} (h : c.toLower = '\n') : c = '\n' := by
  unfold Char.toLower at h
  split at h
  · next hc =>
    have hlow : 65 ≤ c.val.toNat := UInt32.le_iff_toNat_le.1 hc.1
    have hhigh : c.val.toNat ≤ 90 := UInt32.le_iff_toNat_le.1 hc.2
    exact absurd h (shifted_ne_break hlow (by omega) (.inl rfl) rfl)
  · exact h

/-- A table of case mappings in which nothing is mapped to the line feed. -/
theorem mapped_ne_break {runs : List CaseRun} {specials : List (Nat × List Nat)}
    (hruns : ∀ r ∈ runs, (10 : Int) < r.first + r.shift) (hspecials : ∀ x ∈ specials, 10 ∉ x.2)
    {n : Nat} (hn : n ≠ 10) : 10 ∉ mapped runs specials n := by
  unfold mapped
  split
  · next x hx => exact hspecials x (List.mem_of_find?_eq_some hx)
  · split
    · next r hr =>
      have hcovers := List.find?_some hr
      have hfirst := hruns r (List.mem_of_find?_eq_some hr)
      simp only [CaseRun.covers, Bool.and_eq_true, decide_eq_true_eq] at hcovers
      simp only [List.mem_singleton]
      omega
    · simpa using Ne.symm hn

theorem mapped_unbroken {runs : List CaseRun} {specials : List (Nat × List Nat)}
    (hruns : ∀ r ∈ runs, (10 : Int) < r.first + r.shift) (hspecials : ∀ x ∈ specials, 10 ∉ x.2)
    {c : Char} (hc : c ≠ '\n') : '\n' ∉ (mapped runs specials c.toNat).map Char.ofNat := by
  intro h
  obtain ⟨n, hn, heq⟩ := List.mem_map.1 h
  obtain rfl := Utf8.eq_of_ofNat_eq_lf heq
  have hcode : c.toNat ≠ 10 := fun heq => hc (Char.toNat_inj.1 heq)
  exact mapped_ne_break hruns hspecials hcode hn

theorem upperChar_unbroken {c : Char} (hc : c ≠ '\n') : '\n' ∉ upperChar c := by
  unfold upperChar
  split
  · intro h
    exact hc (eq_break_of_toUpper (List.mem_singleton.1 h).symm)
  · exact mapped_unbroken (by decide +kernel) (by decide +kernel) hc

theorem lowerChar_unbroken {c : Char} (hc : c ≠ '\n') : '\n' ∉ lowerChar c := by
  unfold lowerChar
  split
  · intro h
    exact hc (eq_break_of_toLower (List.mem_singleton.1 h).symm)
  · exact mapped_unbroken (by decide +kernel) (by decide +kernel) hc

/-! ## Texts made of others -/

theorem Unbroken.upper {s : String} (hs : Unbroken s) : Unbroken (upper s) := by
  rw [Unbroken, toList_upper]
  intro h
  obtain ⟨c, hc, heq⟩ := List.mem_map.1 h
  exact hs (eq_break_of_toUpper heq ▸ hc)

theorem mem_of_mem_dropEndBlanks {cs : List Char} {c : Char} (hc : c ∈ dropEndBlanks cs) :
    c ∈ cs := by
  rw [dropEndBlanks, List.mem_reverse] at hc
  exact List.mem_reverse.1 ((List.dropWhile_sublist _).mem hc)

theorem mem_of_mem_dropBlanks {cs : List Char} {c : Char} (hc : c ∈ dropBlanks cs) : c ∈ cs :=
  (List.dropWhile_sublist _).mem (mem_of_mem_dropEndBlanks hc)

theorem Unbroken.trim {s : String} (hs : Unbroken s) : Unbroken (trim s) := by
  rw [Text.trim, unbroken_ofList]
  exact fun h => hs (mem_of_mem_dropBlanks h)

theorem Unbroken.trimEnd {s : String} (hs : Unbroken s) : Unbroken (trimEnd s) := by
  rw [Text.trimEnd, unbroken_ofList]
  exact fun h => hs (mem_of_mem_dropEndBlanks h)

theorem unbroken_intercalate {separator : String} {parts : List String}
    (hseparator : Unbroken separator) (hparts : ∀ p ∈ parts, Unbroken p) :
    Unbroken (separator.intercalate parts) := by
  rw [Unbroken, String.toList_intercalate]
  intro h
  obtain h | ⟨cs, hcs, h⟩ := mem_of_mem_intercalate h
  · exact hseparator h
  · obtain ⟨p, hp, rfl⟩ := List.mem_map.1 hcs
    exact hparts p hp h

@[simp]
theorem unbroken_repr (n : Nat) : Unbroken n.repr := by
  show Unbroken (String.ofList (Nat.toDigits 10 n))
  rw [unbroken_ofList]
  intro h
  exact absurd (Nat.isDigit_of_mem_toDigits (by decide) (by decide) h) (by decide)

@[simp]
theorem unbroken_spaces (n : Nat) : Unbroken (spaces n) := by
  rw [spaces, unbroken_ofList]
  exact fun h => absurd (List.eq_of_mem_replicate h) (by decide)

@[simp]
theorem unbroken_padTo {width : Nat} {s : String} : Unbroken (padTo width s) ↔ Unbroken s := by
  simp [padTo]

/-- The lines of texts one below the other are those of each text. -/
theorem splitOn_intercalate_flatMap {ls : List String} (hne : ls ≠ []) :
    ("\n".intercalate ls).toList.splitOn '\n' = ls.flatMap fun l => l.toList.splitOn '\n' := by
  induction ls with
  | nil => exact absurd rfl hne
  | cons l ls ih =>
    cases ls with
    | nil => rw [String.intercalate_singleton, List.flatMap_singleton]
    | cons k ls =>
      have htext : ("\n".intercalate (l :: k :: ls)).toList =
          l.toList ++ '\n' :: ("\n".intercalate (k :: ls)).toList := by
        simp [String.intercalate_cons_cons, String.toList_append]
      rw [htext, List.splitOn_append_cons_self, ih (List.cons_ne_nil k ls)]
      rfl

/-- Lines one below the other are the lines of their text. -/
theorem splitOn_intercalate {ls : List String} (hls : ∀ l ∈ ls, Unbroken l) (hne : ls ≠ []) :
    ("\n".intercalate ls).toList.splitOn '\n' = ls.map String.toList := by
  rw [String.toList_intercalate]
  refine List.splitOn_intercalate '\n' (fun l hl => ?_) (by simpa using hne)
  obtain ⟨s, hs, rfl⟩ := List.mem_map.1 hl
  exact hls s hs

end Stencil.Text

namespace Stencil

open Text

/-- A part of a name has only characters of the name. -/
theorem mem_of_mem_splitOnP {α : Type} {p : α → Bool} {cs part : List α} {c : α}
    (hpart : part ∈ cs.splitOnP p) (hc : c ∈ part) : c ∈ cs := by
  induction cs generalizing part with
  | nil =>
    rw [List.splitOnP_nil, List.mem_singleton] at hpart
    exact hpart ▸ hc
  | cons d cs ih =>
    rw [List.splitOnP_cons_eq_if_modifyHead] at hpart
    split at hpart
    · rcases List.mem_cons.1 hpart with rfl | hpart
      · cases hc
      · exact List.mem_cons_of_mem d (ih hpart hc)
    · cases hsplit : cs.splitOnP p with
      | nil => exact absurd hsplit (List.splitOnP_ne_nil p cs)
      | cons first rest =>
        rw [hsplit, List.modifyHead_cons] at hpart
        rcases List.mem_cons.1 hpart with rfl | hpart
        · rcases List.mem_cons.1 hc with rfl | hc
          · exact List.mem_cons_self
          · exact List.mem_cons_of_mem d (ih (hsplit ▸ List.mem_cons_self) hc)
        · exact List.mem_cons_of_mem d (ih (hsplit ▸ List.mem_cons_of_mem first hpart) hc)

namespace Naming

theorem capitalize_unbroken {cs : List Char} (hcs : '\n' ∉ cs) : '\n' ∉ capitalize cs := by
  cases cs with
  | nil => exact List.not_mem_nil
  | cons c cs =>
    have hc : c ≠ '\n' := fun h => hcs (h ▸ List.mem_cons_self)
    rw [capitalize, List.mem_append, not_or]
    refine ⟨upperChar_unbroken fun h => hc (eq_break_of_toLower h), fun h => ?_⟩
    obtain ⟨d, hd, heq⟩ := List.mem_map.1 h
    exact hcs (List.mem_cons_of_mem c (eq_break_of_toLower heq ▸ hd))

theorem pascalCase_unbroken {s : String} (hs : Unbroken s) : Unbroken (pascalCase s) := by
  rw [pascalCase, unbroken_ofList]
  intro h
  obtain ⟨part, hpart, hmem⟩ := List.mem_flatMap.1 h
  exact capitalize_unbroken (fun hbreak => hs (mem_of_mem_splitOnP hpart hbreak)) hmem

theorem camelCase_unbroken {s : String} (hs : Unbroken s) : Unbroken (camelCase s) := by
  have hpascal : '\n' ∉ (pascalCase s).toList := pascalCase_unbroken hs
  unfold camelCase
  split
  · decide
  · next c cs hcs =>
    rw [hcs, List.mem_cons, not_or] at hpascal
    rw [unbroken_ofList, List.mem_append, not_or]
    exact ⟨lowerChar_unbroken (Ne.symm hpascal.1), hpascal.2⟩

theorem cobolName_unbroken {s : String} (hs : Unbroken s) : Unbroken (cobolName s) := by
  refine Unbroken.upper ?_
  rw [unbroken_ofList]
  intro h
  obtain ⟨c, hc, heq⟩ := List.mem_map.1 h
  split at heq
  · exact absurd heq (by decide)
  · exact hs.trim (heq ▸ hc)

end Naming

namespace Field

/-- The names of the field are on one line. -/
structure Unbroken (f : Field) : Prop where
  column : Text.Unbroken f.column
  declaredName : ∀ n, f.declaredName = some n → Text.Unbroken n

theorem Unbroken.cobolName {f : Field} (hf : f.Unbroken) : Text.Unbroken f.cobolName := by
  unfold Field.cobolName
  split
  · next n hn =>
    split
    · exact Naming.cobolName_unbroken hf.column
    · exact (hf.declaredName n hn).trim
  · exact Naming.cobolName_unbroken hf.column

end Field

/-- A parameter is on one line when all are. -/
theorem param_unbroken {ps : List String} (hps : ∀ p ∈ ps, Unbroken p) {i : Nat} {p : String}
    (hp : param ps i = some p) : Unbroken p := by
  obtain ⟨hmap, -⟩ := Option.filter_eq_some_iff.1 hp
  obtain ⟨raw, hraw, rfl⟩ := Option.map_eq_some_iff.1 hmap
  exact (hps raw (List.mem_of_getElem? hraw)).trim

end Stencil
