import Stencil.Naming
import Mathlib.Data.List.Nodup

/-!
# Names that stay apart

The metadata spells its columns in capital letters, digits and underscores, a letter first
(`IsColumnName`). Two such names have different COBOL names, since only the underscores are
changed (`cobolName_inj`). In Java names the underscores are dropped, and what is left of them is
the capital letter behind: an underscore that no letter follows leaves no trace. So two names have
the same property, or the same member, just if they differ in such underscores only
(`pascalCase_eq_iff`, `camelCase_eq_iff`).
-/

namespace Stencil.Naming

open Text

/-! ## Column names -/

/-- A character of a column name. -/
def IsColumnChar (c : Char) : Prop := c.isUpper ∨ c.isDigit ∨ c = '_'

instance (c : Char) : Decidable (IsColumnChar c) :=
  inferInstanceAs (Decidable (c.isUpper ∨ c.isDigit ∨ c = '_'))

/-- A name of capital letters, digits and underscores that starts with a letter. -/
structure IsColumnName (s : String) : Prop where
  starts : s.toList.head?.any Char.isUpper
  chars : ∀ c ∈ s.toList, IsColumnChar c

instance (s : String) : Decidable (IsColumnName s) :=
  decidable_of_iff (s.toList.head?.any Char.isUpper ∧ s.toList.all fun c => decide (IsColumnChar c))
    ⟨fun h => ⟨h.1, by simpa using h.2⟩, fun h => ⟨h.starts, by simpa using h.chars⟩⟩

/-- The underscores left out that no letter follows. -/
def dropIdle : List Char → List Char
  | [] => []
  | c :: cs => if c = '_' ∧ !cs.head?.any Char.isUpper then dropIdle cs else c :: dropIdle cs

/-- What the Java names of a column show of its name: all but the underscores that no letter
follows. -/
def significant (column : String) : String := String.ofList (dropIdle column.toList)

/-- A character as it stands in a COBOL name. -/
def dashed (c : Char) : Char := if c = '_' then '-' else c

/-! ## Characters -/

/-- The characters of column names are ASCII, so that a property of them all can be decided. -/
theorem IsColumnChar.of_ascii {p : Char → Prop} {c : Char} (hc : IsColumnChar c)
    (h : ∀ n < 128, IsColumnChar (Char.ofNat n) → p (Char.ofNat n)) : p c := by
  have hlow : c.toNat < 128 := by
    rcases hc with hc | hc | rfl
    · have hrange : 'A'.val ≤ c.val ∧ c.val ≤ 'Z'.val := of_decide_eq_true hc
      exact Nat.lt_of_le_of_lt (UInt32.le_iff_toNat_le.1 hrange.2) (by decide)
    · have hrange := (Bool.and_eq_true_iff.1 hc).2
      exact Nat.lt_of_le_of_lt (UInt32.le_iff_toNat_le.1 (of_decide_eq_true hrange)) (by decide)
    · decide
  have hchar := Char.ofNat_toNat c
  exact hchar ▸ h c.toNat hlow (hchar.symm ▸ hc)

namespace IsColumnChar

variable {c : Char}

theorem not_break (hc : IsColumnChar c) (hne : c ≠ '_') : isWordBreak c = false :=
  hc.of_ascii (p := fun c => c ≠ '_' → isWordBreak c = false) (by decide) hne

theorem not_blank (hc : IsColumnChar c) : isBlank c = false :=
  hc.of_ascii (p := fun c => isBlank c = false) (by decide)

theorem toUpper_eq (hc : IsColumnChar c) : c.toUpper = c :=
  hc.of_ascii (p := fun c => c.toUpper = c) (by decide)

theorem toUpper_toLower (hc : IsColumnChar c) : c.toLower.toUpper = c :=
  hc.of_ascii (p := fun c => c.toLower.toUpper = c) (by decide)

theorem not_isUpper_toLower (hc : IsColumnChar c) : c.toLower.isUpper = false :=
  hc.of_ascii (p := fun c => c.toLower.isUpper = false) (by decide)

theorem toLower_eq (hc : IsColumnChar c) (hupper : c.isUpper = false) : c.toLower = c :=
  hc.of_ascii (p := fun c => c.isUpper = false → c.toLower = c) (by decide) hupper

theorem toUpper_dashed (hc : IsColumnChar c) : (dashed c).toUpper = dashed c :=
  hc.of_ascii (p := fun c => (dashed c).toUpper = dashed c) (by decide)

theorem dashed_back (hc : IsColumnChar c) : (if dashed c = '-' then '_' else dashed c) = c :=
  hc.of_ascii (p := fun c => (if dashed c = '-' then '_' else dashed c) = c) (by decide)

theorem upperChar_toLower (hc : IsColumnChar c) : upperChar c.toLower = [c] :=
  hc.of_ascii (p := fun c => upperChar c.toLower = [c]) (by decide +kernel)

theorem lowerChar_eq (hc : IsColumnChar c) : lowerChar c = [c.toLower] :=
  hc.of_ascii (p := fun c => lowerChar c = [c.toLower]) (by decide +kernel)

end IsColumnChar

/-! ## COBOL names -/

variable {a b : String} {c : Char} {cs : List Char}

theorem dropBlanks_of_not_blank (hcs : ∀ c ∈ cs, isBlank c = false) : dropBlanks cs = cs := by
  have hdrop {cs : List Char} (hcs : ∀ c ∈ cs, isBlank c = false) : cs.dropWhile isBlank = cs := by
    cases cs with
    | nil => rfl
    | cons c cs => exact List.dropWhile_cons_of_neg (by simp [hcs c List.mem_cons_self])
  have hreverse : ∀ c ∈ cs.reverse, isBlank c = false := fun c hc => hcs c (List.mem_reverse.1 hc)
  rw [dropBlanks, dropEndBlanks, hdrop hcs, hdrop hreverse, List.reverse_reverse]

/-- The COBOL name of a column is its name with dashes. -/
theorem toList_cobolName (ha : ∀ c ∈ a.toList, IsColumnChar c) :
    (cobolName a).toList = a.toList.map dashed := by
  have htrim : dropBlanks a.toList = a.toList :=
    dropBlanks_of_not_blank fun c hc => (ha c hc).not_blank
  rw [cobolName, toList_upper, String.toList_ofList, trim, String.toList_ofList, htrim,
    List.map_map]
  exact List.map_congr_left fun c hc => (ha c hc).toUpper_dashed

/-- Columns with one COBOL name are the same. -/
theorem cobolName_inj (ha : ∀ c ∈ a.toList, IsColumnChar c) (hb : ∀ c ∈ b.toList, IsColumnChar c)
    (h : cobolName a = cobolName b) : a = b := by
  have hback : ∀ s : String, (∀ c ∈ s.toList, IsColumnChar c) →
      (cobolName s).toList.map (fun c => if c = '-' then '_' else c) = s.toList := by
    intro s hs
    rw [toList_cobolName hs, List.map_map]
    exact (List.map_congr_left fun c hc => (hs c hc).dashed_back).trans (List.map_id s.toList)
  rw [← String.toList_inj, ← hback a ha, ← hback b hb, h]

/-! ## Java names -/

/-- The words of a name run together: the first character of a word stands as it is, the others in
lower case. With `starts`, a word begins. -/
def humps (starts : Bool) : List Char → List Char
  | [] => []
  | c :: cs =>
    if c = '_' then humps true cs else (if starts then c else c.toLower) :: humps false cs

theorem splitOnP_humps (hcs : ∀ c ∈ cs, IsColumnChar c) : ∃ word words,
    cs.splitOnP isWordBreak = word :: words ∧
      humps true cs = capitalize word ++ words.flatMap capitalize ∧
      humps false cs = word.map Char.toLower ++ words.flatMap capitalize := by
  induction cs with
  | nil => exact ⟨[], [], rfl, rfl, rfl⟩
  | cons c cs ih =>
    obtain ⟨word, words, hsplit, htrue, hfalse⟩ := ih fun d hd => hcs d (List.mem_cons_of_mem c hd)
    by_cases hc : c = '_'
    · subst hc
      refine ⟨[], word :: words, ?_, ?_, ?_⟩
      · rw [List.splitOnP_cons_eq_if_modifyHead, hsplit]
        rfl
      · rw [humps, if_pos rfl, htrue]
        rfl
      · rw [humps, if_pos rfl, htrue]
        rfl
    · have hchar : IsColumnChar c := hcs c List.mem_cons_self
      refine ⟨c :: word, words, ?_, ?_, ?_⟩
      · rw [List.splitOnP_cons_eq_if_modifyHead, hsplit, hchar.not_break hc]
        rfl
      · rw [humps, if_neg hc, hfalse, capitalize, hchar.upperChar_toLower]
        rfl
      · rw [humps, if_neg hc, hfalse]
        rfl

/-- The property of a column is its name in this form. -/
theorem pascalCase_eq (ha : ∀ c ∈ a.toList, IsColumnChar c) :
    pascalCase a = String.ofList (humps true a.toList) := by
  obtain ⟨word, words, hsplit, hhumps, -⟩ := splitOnP_humps ha
  rw [pascalCase, hsplit, hhumps, List.flatMap_cons]

/-- A name read back from its words run together. -/
def unhump (cs : List Char) : List Char :=
  cs.flatMap fun c => if c.isUpper then ['_', c] else [c.toUpper]

theorem dropIdle_of_ne (hc : c ≠ '_') : dropIdle (c :: cs) = c :: dropIdle cs :=
  if_neg fun h => hc h.1

theorem dropIdle_idle (hcs : cs.head?.any Char.isUpper = false) :
    dropIdle ('_' :: cs) = dropIdle cs :=
  if_pos ⟨rfl, by simp [hcs]⟩

theorem dropIdle_kept (hc : c.isUpper = true) :
    dropIdle ('_' :: c :: cs) = '_' :: dropIdle (c :: cs) :=
  if_neg fun h => absurd h.2 (by simp [hc])

/-- What is read back are all underscores but those that no letter follows. -/
theorem unhump_humps (hcs : ∀ c ∈ cs, IsColumnChar c) :
    unhump (humps false cs) = dropIdle cs ∧ unhump (humps true cs) = dropIdle ('_' :: cs) := by
  -- both at once: a word begins behind an underscore, and goes on behind any other character
  induction cs with
  | nil => exact ⟨rfl, rfl⟩
  | cons c cs ih =>
    obtain ⟨hfalse, htrue⟩ := ih fun d hd => hcs d (List.mem_cons_of_mem c hd)
    have hchar : IsColumnChar c := hcs c List.mem_cons_self
    by_cases hc : c = '_'
    · subst hc
      have hidle : dropIdle ('_' :: '_' :: cs) = dropIdle ('_' :: cs) := dropIdle_idle rfl
      exact ⟨htrue, htrue.trans hidle.symm⟩
    · have hinner : unhump (humps false (c :: cs)) = c :: dropIdle cs := by
        rw [humps, if_neg hc, unhump, List.flatMap_cons, ← unhump, hfalse,
          if_neg Bool.false_ne_true, if_neg (by simp [hchar.not_isUpper_toLower]),
          hchar.toUpper_toLower]
        rfl
      refine ⟨hinner.trans (dropIdle_of_ne hc).symm, ?_⟩
      rw [humps, if_neg hc, unhump, List.flatMap_cons, ← unhump, hfalse, if_pos rfl]
      by_cases hupper : c.isUpper = true
      · rw [if_pos hupper, dropIdle_kept hupper, dropIdle_of_ne hc]
        rfl
      · have hhead : (c :: cs).head?.any Char.isUpper = false := by simpa using hupper
        rw [if_neg hupper, hchar.toUpper_eq, dropIdle_idle hhead, dropIdle_of_ne hc]
        rfl

/-- Where no letter comes first, it makes no difference whether a word begins. -/
theorem humps_of_not_upper (hcs : ∀ c ∈ cs, IsColumnChar c)
    (hhead : cs.head?.any Char.isUpper = false) : humps true cs = humps false cs := by
  cases cs with
  | nil => rfl
  | cons c cs =>
    have hlower : c.toLower = c := (hcs c List.mem_cons_self).toLower_eq (by simpa using hhead)
    simp only [humps, hlower, ite_self]

/-- Without these underscores the words run together are the same. -/
theorem humps_dropIdle (hcs : ∀ c ∈ cs, IsColumnChar c) (starts : Bool) :
    humps starts (dropIdle cs) = humps starts cs := by
  induction cs generalizing starts with
  | nil => rfl
  | cons c cs ih =>
    have hrest : ∀ d ∈ cs, IsColumnChar d := fun d hd => hcs d (List.mem_cons_of_mem c hd)
    by_cases hc : c = '_'
    · subst hc
      -- without the underscore a word begins only if a letter makes it one
      cases hhead : cs.head?.any Char.isUpper with
      | true =>
        have hkept : dropIdle ('_' :: cs) = '_' :: dropIdle cs := if_neg (by simp [hhead])
        rw [hkept, humps, if_pos rfl, ih hrest, humps, if_pos rfl]
      | false =>
        rw [dropIdle_idle hhead, ih hrest, humps, if_pos rfl]
        cases starts with
        | true => rfl
        | false => exact (humps_of_not_upper hrest hhead).symm
    · rw [dropIdle_of_ne hc, humps, if_neg hc, ih hrest, humps, if_neg hc]

/-- So behind a letter they tell what a name shows. -/
theorem humps_eq_iff {ds : List Char} (hcs : ∀ c ∈ cs, IsColumnChar c)
    (hds : ∀ d ∈ ds, IsColumnChar d) :
    humps false cs = humps false ds ↔ dropIdle cs = dropIdle ds := by
  constructor
  · intro h
    rw [← (unhump_humps hcs).1, ← (unhump_humps hds).1, h]
  · intro h
    rw [← humps_dropIdle hcs, ← humps_dropIdle hds, h]

/-- A column name taken apart at its first letter, with the names that come of it. -/
theorem IsColumnName.exists_letter (ha : IsColumnName a) : ∃ c cs, IsColumnChar c ∧
    (∀ d ∈ cs, IsColumnChar d) ∧ significant a = String.ofList (c :: dropIdle cs) ∧
    pascalCase a = String.ofList (c :: humps false cs) ∧
    camelCase a = String.ofList (c.toLower :: humps false cs) := by
  have hstarts := ha.starts
  cases htext : a.toList with
  | nil =>
    rw [htext] at hstarts
    cases hstarts
  | cons c cs =>
    rw [htext] at hstarts
    have hupper : c.isUpper = true := hstarts
    have hc : c ≠ '_' := by
      rintro rfl
      exact absurd hupper (by decide)
    have hchar : IsColumnChar c := .inl hupper
    have hpascal : pascalCase a = String.ofList (c :: humps false cs) := by
      rw [pascalCase_eq ha.chars, htext, humps, if_neg hc, if_pos rfl]
    have hcs : ∀ d ∈ cs, IsColumnChar d := fun d hd =>
      ha.chars d (htext ▸ List.mem_cons_of_mem c hd)
    refine ⟨c, cs, hchar, hcs, ?_, hpascal, ?_⟩
    · rw [significant, htext, dropIdle_of_ne hc]
    · rw [camelCase, hpascal, String.toList_ofList]
      simp only [hchar.lowerChar_eq, List.singleton_append]

/-- Two columns have one property just if their names differ at most in underscores that no letter
follows, -/
theorem pascalCase_eq_iff (ha : IsColumnName a) (hb : IsColumnName b) :
    pascalCase a = pascalCase b ↔ significant a = significant b := by
  obtain ⟨c, cs, -, hcs, hshown, hpascal, -⟩ := ha.exists_letter
  obtain ⟨d, ds, -, hds, hshown', hpascal', -⟩ := hb.exists_letter
  rw [hpascal, hpascal', hshown, hshown', String.ofList_inj, String.ofList_inj, List.cons.injEq,
    List.cons.injEq, humps_eq_iff hcs hds]

/-- and just then they have one member. -/
theorem camelCase_eq_iff (ha : IsColumnName a) (hb : IsColumnName b) :
    camelCase a = camelCase b ↔ significant a = significant b := by
  obtain ⟨c, cs, hc, hcs, hshown, -, hcamel⟩ := ha.exists_letter
  obtain ⟨d, ds, hd, hds, hshown', -, hcamel'⟩ := hb.exists_letter
  have hletter : c.toLower = d.toLower ↔ c = d :=
    ⟨fun h => by rw [← hc.toUpper_toLower, ← hd.toUpper_toLower, h], fun h => h ▸ rfl⟩
  rw [hcamel, hcamel', hshown, hshown', String.ofList_inj, String.ofList_inj, List.cons.injEq,
    List.cons.injEq, humps_eq_iff hcs hds, hletter]

end Stencil.Naming
