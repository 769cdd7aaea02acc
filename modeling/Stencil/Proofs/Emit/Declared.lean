import Stencil.Proofs.Emit.Listed
import Stencil.Proofs.Token.Slice

/-!
# Declarations line up

`HOSTVARS`, `NULLINDS` and `DCLTAB` declare the fields of a table on a line each, with a clause
behind every name. The names are filled up with blanks to the widest one. Its width is counted in
bytes while blanks are added by characters, which does no harm: no name has more characters than
bytes (`length_le_widest`). So the clauses start at one column whatever the names are made of, and
no name is cut off (`declarations_line_up`).
-/

namespace Stencil.Cobol

open Engine Naming Text

/-! ## Lines of declarations -/

/-- A line that declares a name. -/
structure Declaration where
  lead : String
  name : String
  /-- The number of blanks between the name and its clause. -/
  gap : Nat
  clause : String
  tail : String

namespace Declaration

/-- The line. -/
def line (d : Declaration) : String := d.lead ++ d.name ++ spaces d.gap ++ d.clause ++ d.tail

/-- The column at which the clause starts. -/
def column (d : Declaration) : Nat := (d.lead ++ d.name ++ spaces d.gap).length

end Declaration

/-- Declarations of fields, with the clauses at least `separation` blanks behind the names. -/
def declarationsOf (separation : Nat) (lead : Nat → String) (name clause : Field → String)
    (tail : Nat → Field → String) (fs : List Field) : List Declaration :=
  fs.mapIdx fun i f =>
    ⟨lead i, name f, widest (fs.map name) - (name f).length + separation, clause f, tail i f⟩

/-- The declarations of host variables behind a `lead`. -/
def hostDeclarations (lead : String) (fs : List Field) : List Declaration :=
  declarationsOf 2 (fun _ => lead) Field.cobolName Field.picture (fun _ _ => ".") fs

/-- The declarations of null indicators behind a `lead`. -/
def nullDeclarations (lead : String) (fs : List Field) : List Declaration :=
  declarationsOf 2 (fun _ => lead) (fun f => f.cobolName ++ "-NI") (fun _ => "PIC S9(4) COMP")
    (fun _ _ => ".") fs

/-- The declarations of columns: the key is never null, and all lines but the last end in
a comma. -/
def columnDeclarations (indent : Nat) (fs : List Field) : List Declaration :=
  declarationsOf 1 (fun i => spaces indent ++ if i = 0 then "( " else "  ")
    Field.column Field.sqlType
    (fun i f => (if f.isKey then " NOT NULL" else "") ++ if i + 1 = fs.length then "" else ",") fs

/-- Some declarations are those of the fields, one by one, and their clauses start at one column. -/
structure LinedUp (ds : List Declaration) (fs : List Field) (name clause : Field → String) :
    Prop where
  names : ds.map (·.name) = fs.map name
  clauses : ds.map (·.clause) = fs.map clause
  column : ∃ column, ∀ d ∈ ds, d.column = column

/-! ## Widths -/

theorem length_le_byteSize (cs : List Char) : cs.length ≤ byteSize cs := by
  induction cs with
  | nil => exact Nat.le_refl 0
  | cons c cs ih =>
    have hc := c.utf8Size_pos
    rw [List.length_cons, byteSize_cons]
    omega

theorem length_le_utf8ByteSize (s : String) : s.length ≤ s.utf8ByteSize := by
  rw [← String.ofList_toList (s := s), utf8ByteSize_ofList, String.length_ofList]
  exact length_le_byteSize s.toList

theorem le_foldl_max {sizes : List Nat} {start n : Nat} (hn : n ≤ start ∨ n ∈ sizes) :
    n ≤ sizes.foldl max start := by
  induction sizes generalizing start with
  | nil => simpa using hn
  | cons size sizes ih =>
    refine ih ?_
    rcases hn with hn | hn
    · exact .inl (by omega)
    · rcases List.mem_cons.1 hn with rfl | hn
      · exact .inl (Nat.le_max_right start n)
      · exact .inr hn

/-- No name has more characters than the widest one has bytes. -/
theorem length_le_widest {names : List String} {name : String} (hname : name ∈ names) :
    name.length ≤ widest names :=
  Nat.le_trans (length_le_utf8ByteSize name) (le_foldl_max (.inr (List.mem_map_of_mem hname)))

variable {separation indent : Nat} {lead : Nat → String} {name clause : Field → String}
  {tail : Nat → Field → String} {fs : List Field}

/-- Behind leads of one length, clauses start at one column. -/
theorem declarationsOf_linedUp (length : Nat) (hlead : ∀ i, (lead i).length = length) :
    LinedUp (declarationsOf separation lead name clause tail fs) fs name clause where
  names := List.ext_getElem (by simp [declarationsOf]) fun i _ _ => by simp [declarationsOf]
  clauses := List.ext_getElem (by simp [declarationsOf]) fun i _ _ => by simp [declarationsOf]
  column := by
    refine ⟨length + widest (fs.map name) + separation, fun d hd => ?_⟩
    obtain ⟨i, hi, rfl⟩ := List.mem_mapIdx.1 hd
    have hwidest : (name fs[i]).length ≤ widest (fs.map name) :=
      length_le_widest (List.mem_map_of_mem (List.getElem_mem hi))
    simp only [Declaration.column, String.length_append, hlead, spaces, String.length_ofList,
      List.length_replicate]
    omega

theorem hostDeclarations_linedUp (lead : String) (fs : List Field) :
    LinedUp (hostDeclarations lead fs) fs Field.cobolName Field.picture :=
  declarationsOf_linedUp lead.length fun _ => rfl

/-! ## Written lines -/

/-- The lines of values one below the other are those of each value. -/
theorem valueLines_intercalate {ls : List String} (hne : ls ≠ []) :
    valueLines ("\n".intercalate ls).toList = ls.flatMap fun l => valueLines l.toList := by
  rw [valueLines, splitOn_intercalate_flatMap hne, List.map_flatMap]
  rfl

/-- A text with which a line may end: it has no line break, and a last character that is no carriage
return, so that it is written as it stands. -/
def EndsLine (s : String) : Prop := Unbroken s ∧ s.toList.getLast?.any (· != '\r')

instance (s : String) : Decidable (EndsLine s) :=
  inferInstanceAs (Decidable (Unbroken s ∧ s.toList.getLast?.any (· != '\r')))

theorem EndsLine.append {s t : String} (hs : Unbroken s) (ht : EndsLine t) : EndsLine (s ++ t) := by
  refine ⟨unbroken_append.2 ⟨hs, ht.1⟩, ?_⟩
  have hlast := ht.2
  cases hend : t.toList.getLast? with
  | none =>
    rw [hend] at hlast
    cases hlast
  | some c => rwa [String.toList_append, List.getLast?_append, hend, Option.some_or, ← hend]

theorem EndsLine.ne_return {s : String} (hs : EndsLine s) : s.toList.getLast? ≠ some '\r' := by
  intro hend
  have hlast := hs.2
  rw [hend] at hlast
  exact absurd hlast (by decide)

/-- Such a text alone is written as one line. -/
theorem EndsLine.valueLines {s : String} (hs : EndsLine s) : valueLines s.toList = [s] := by
  rw [Engine.valueLines, List.splitOn_eq_singleton hs.1, List.map_singleton,
    dropLastIf_of_ne hs.ne_return, String.ofList_toList]

/-- Of a text in front of which others stand on the same line, the lines above are those of the
text in front. When this has no line break, there are none. -/
theorem exists_lead (front : String) : ∃ above lead,
    (Unbroken front → above = [] ∧ lead = front) ∧
      ∀ rest, EndsLine rest →
        Engine.valueLines (front ++ rest).toList = above ++ [lead ++ rest] := by
  by_cases hfront : Unbroken front
  · exact ⟨[], front, fun _ => ⟨rfl, rfl⟩,
      fun rest hrest => (EndsLine.append hfront hrest).valueLines⟩
  · obtain ⟨above, lead, hlead, -, hsplit⟩ := exists_lastPart front.toList
    refine ⟨above.map fun l => String.ofList (dropLastIf '\r' l), String.ofList lead,
      fun h => absurd h hfront, fun rest hrest => ?_⟩
    have hline : EndsLine (String.ofList lead ++ rest) :=
      EndsLine.append (unbroken_ofList.2 hlead) hrest
    have hsingle := hline.valueLines
    rw [Engine.valueLines, String.toList_append, String.toList_ofList] at hsingle
    rw [Engine.valueLines, String.toList_append, hsplit, List.map_append, hsingle]

/-! ## The lines of the emitters -/

theorem spaces_add (m n : Nat) : spaces (m + n) = spaces m ++ spaces n := by
  rw [spaces, spaces, spaces, ← String.ofList_append, List.replicate_append_replicate]

/-- Declarations behind a lead that is the same for all. -/
theorem declarationsOf_const (lead : String) :
    declarationsOf separation (fun _ => lead) name clause (fun _ _ => ".") fs = fs.map fun f =>
      ⟨lead, name f, widest (fs.map name) - (name f).length + separation, clause f, "."⟩ :=
  List.mapIdx_eq_iff.2 fun i => by rw [List.getElem?_map]

/-- The entries of WORKING-STORAGE are declarations behind the level. -/
theorem declarationLines_eq (level : String) : declarationLines indent level name clause fs =
    (declarationsOf 2 (fun _ => spaces indent ++ level ++ "  ") name clause (fun _ _ => ".") fs).map
      Declaration.line := by
  rw [declarationsOf_const, declarationLines, List.map_map]
  refine List.map_congr_left fun f _ => ?_
  have htwo : spaces 2 = "  " := by decide
  simp only [Function.comp_apply, padTo, Declaration.line, spaces_add, htwo, String.append_assoc]

/-- So `HOSTVARS` gives declarations one below the other, -/
theorem hostVars_value (c : Context) (ps : List String) (fs : List Field) :
    hostVars.value c ps (some fs) = "\n".intercalate
      ((hostDeclarations (spaces c.column ++ level ps ++ "  ") fs).map Declaration.line) := by
  rw [(corresponding c ps fs).hostVars, hostLines, declarationLines_eq]
  rfl

/-- and `NULLINDS` does. -/
theorem nullIndicators_value (c : Context) (ps : List String) (fs : List Field) :
    nullIndicators.value c ps (some fs) = "\n".intercalate
      ((nullDeclarations (spaces c.column ++ level ps ++ "  ") fs).map Declaration.line) := by
  rw [(corresponding c ps fs).nullIndicators, nullLines, declarationLines_eq]
  rfl

/-- When they are written, the lines that the lead begins with are repeated for every field. -/
theorem valueLines_declarationsOf {above : List String} {front lead : String} (hfs : fs ≠ [])
    (hname : ∀ f ∈ fs, Unbroken (name f)) (hclause : ∀ f, Unbroken (clause f))
    (hfront : ∀ rest, EndsLine rest →
      valueLines (front ++ rest).toList = above ++ [lead ++ rest]) :
    valueLines ("\n".intercalate ((declarationsOf separation (fun _ => front) name clause
        (fun _ _ => ".") fs).map Declaration.line)).toList =
      (declarationsOf separation (fun _ => lead) name clause (fun _ _ => ".") fs).flatMap
        fun d => above ++ [d.line] := by
  rw [declarationsOf_const, declarationsOf_const, valueLines_intercalate (by simpa using hfs),
    List.flatMap_map, List.flatMap_map, List.flatMap_map]
  refine List.flatMap_congr fun f hf => ?_
  have hrest : EndsLine (name f ++ spaces (widest (fs.map name) - (name f).length + separation) ++
      clause f ++ ".") :=
    EndsLine.append (by simp [hname f hf, hclause f]) (by decide)
  have hline := hfront _ hrest
  simp only [← String.append_assoc] at hline
  exact hline

/-- A column type ends a line. -/
theorem sqlType_endsLine (f : Field) : EndsLine f.sqlType := by
  have hclose {s : String} (hs : Unbroken s) : EndsLine (s ++ ")") := EndsLine.append hs (by decide)
  have hparens (n : Nat) : EndsLine (Field.parens n) := hclose (by simp +decide)
  unfold Field.sqlType
  split
  case h_4 => exact hclose (by simp +decide)
  case h_6 | h_7 => exact EndsLine.append (by decide) (hparens _)
  all_goals decide

/-- So does a column type with what may follow it. -/
theorem columnTail_endsLine (f : Field) (last : Prop) [Decidable last] :
    EndsLine (f.sqlType ++
      ((if f.isKey then " NOT NULL" else "") ++ if last then "" else ",")) := by
  have htype := sqlType_endsLine f
  by_cases hlast : last
  · rw [if_pos hlast, String.append_empty]
    by_cases hkey : f.isKey = true
    · rw [if_pos hkey]
      exact EndsLine.append htype.1 (by decide)
    · rwa [if_neg hkey, String.append_empty]
  · rw [if_neg hlast, ← String.append_assoc]
    refine EndsLine.append (unbroken_append.2 ⟨htype.1, ?_⟩) (by decide)
    split <;> decide

theorem columnDeclarations_endsLine (hnames : ∀ f ∈ fs, Unbroken f.column) :
    ∀ d ∈ columnDeclarations indent fs, EndsLine d.line := by
  intro d hd
  obtain ⟨i, hi, rfl⟩ := List.mem_mapIdx.1 hd
  have hfirst : Unbroken (if i = 0 then "( " else "  ") := by split <;> decide
  have hfront (gap : Nat) : Unbroken (spaces indent ++ (if i = 0 then "( " else "  ") ++
      fs[i].column ++ spaces gap) := by
    simp [hfirst, hnames _ (List.getElem_mem hi)]
  have htail := columnTail_endsLine fs[i] (i + 1 = fs.length)
  rw [Declaration.line, String.append_assoc]
  exact EndsLine.append (hfront _) htail

/-- The lines of a table declaration: those of the columns stand between two others. -/
theorem valueLines_tableLines (table : String) (hnames : ∀ f ∈ fs, Unbroken f.column) :
    valueLines (indented indent (tableLines table fs)).toList =
      valueLines (spaces indent ++ ("EXEC SQL DECLARE " ++ table ++ " TABLE")).toList ++
        (columnDeclarations indent fs).map Declaration.line ++
        [spaces indent ++ ") END-EXEC."] := by
  have hcolumns : (fs.mapIdx (columnLine (widest (fs.map (·.column))) fs.length)).map
      (spaces indent ++ ·) = (columnDeclarations indent fs).map Declaration.line := by
    refine List.ext_getElem (by simp [columnDeclarations, declarationsOf]) fun i _ _ => ?_
    have hone : spaces 1 = " " := by decide
    simp [columnDeclarations, declarationsOf, columnLine, Declaration.line, padTo, spaces_add, hone,
      String.append_assoc]
  have hsingle : ((columnDeclarations indent fs).map Declaration.line).flatMap
      (fun l => valueLines l.toList) = (columnDeclarations indent fs).map Declaration.line := by
    rw [List.flatMap_map, List.map_eq_flatMap]
    exact List.flatMap_congr fun d hd => (columnDeclarations_endsLine hnames d hd).valueLines
  have hlast : EndsLine (spaces indent ++ ") END-EXEC.") :=
    EndsLine.append (unbroken_spaces indent) (by decide)
  have hne : (tableLines table fs).map (spaces indent ++ ·) ≠ [] := by simp [tableLines]
  rw [indented, valueLines_intercalate hne, tableLines, List.map_append, List.map_cons, hcolumns,
    List.map_singleton, List.flatMap_append, List.flatMap_cons, hsingle, List.flatMap_singleton,
    hlast.valueLines]

/-- **Declarations line up.** Take any fields with names on one line, of which there is one at
least, any parameters and any column of the token. `HOSTVARS` and `NULLINDS` give a declaration
for each field, in order and with its whole name, one below the other, and the clauses start at
one column. When the level text has no line break, these are the lines that are written; otherwise
its first lines stand above every declaration, and the clauses start at one column of the lines on
which they stand. In `DCLTAB` the lines between the first and the last part declare the columns in
the same way; each of them but the last ends in a comma, and those of the key, and no others, have
`NOT NULL`. -/
theorem declarations_line_up (c : Context) (ps : List String) (fs : List Field) (hfs : fs ≠ [])
    (hnames : ∀ f ∈ fs, f.Unbroken) :
    (hostVars.value c ps (some fs) = "\n".intercalate
        ((hostDeclarations (spaces c.column ++ level ps ++ "  ") fs).map Declaration.line) ∧
      nullIndicators.value c ps (some fs) = "\n".intercalate
        ((nullDeclarations (spaces c.column ++ level ps ++ "  ") fs).map Declaration.line)) ∧
    (∀ lead, LinedUp (hostDeclarations lead fs) fs Field.cobolName Field.picture ∧
      LinedUp (nullDeclarations lead fs) fs (fun f => f.cobolName ++ "-NI")
        (fun _ => "PIC S9(4) COMP")) ∧
    (∃ above lead,
      (Unbroken (level ps) → above = [] ∧ lead = spaces c.column ++ level ps ++ "  ") ∧
      valueLines (hostVars.value c ps (some fs)).toList =
        (hostDeclarations lead fs).flatMap (fun d => above ++ [d.line]) ∧
      valueLines (nullIndicators.value c ps (some fs)).toList =
        (nullDeclarations lead fs).flatMap (fun d => above ++ [d.line])) ∧
    valueLines (declareTable.value c ps (some fs)).toList =
      valueLines (spaces c.column ++ ("EXEC SQL DECLARE " ++ tableOr c ++ " TABLE")).toList ++
        (columnDeclarations c.column fs).map Declaration.line ++
        [spaces c.column ++ ") END-EXEC."] ∧
    LinedUp (columnDeclarations c.column fs) fs Field.column Field.sqlType ∧
    (columnDeclarations c.column fs).map (·.tail) = (fs.mapIdx fun i f =>
      (if f.isKey then " NOT NULL" else "") ++ if i + 1 = fs.length then "" else ",") ∧
    ∀ m ∈ [hostVars, nullIndicators, declareTable],
      Backend.cobol.registry.find? m.name = some m.trigger := by
  obtain ⟨above, lead, hunbroken, hlead⟩ := exists_lead (spaces c.column ++ level ps ++ "  ")
  have hindicator (f : Field) (hf : f ∈ fs) : Unbroken (f.cobolName ++ "-NI") :=
    unbroken_append.2 ⟨(hnames f hf).cobolName, by decide⟩
  have hemitters : [hostVars, nullIndicators, declareTable] ⊆ sqlEmitters ++ storageEmitters := by
    simp [sqlEmitters, storageEmitters]
  refine ⟨⟨hostVars_value c ps fs, nullIndicators_value c ps fs⟩,
    fun lead => ⟨hostDeclarations_linedUp lead fs,
      declarationsOf_linedUp lead.length fun _ => rfl⟩,
    ⟨above, lead, fun h => hunbroken ?_, ?_, ?_⟩,
    valueLines_tableLines (tableOr c) fun f hf => (hnames f hf).column,
    declarationsOf_linedUp (c.column + 2) fun i => ?_, ?_, fun m hm => find?_emitter (hemitters hm)⟩
  · simpa +decide using h
  · rw [hostVars_value]
    exact valueLines_declarationsOf hfs (fun f hf => (hnames f hf).cobolName) picture_unbroken hlead
  · rw [nullIndicators_value]
    exact valueLines_declarationsOf hfs hindicator (fun _ => by decide) hlead
  · split <;> simp +decide [spaces]
  · exact List.ext_getElem (by simp [columnDeclarations, declarationsOf]) fun i _ _ => by
      simp [columnDeclarations, declarationsOf]

/-- A name with a character of two bytes, and a shorter one. -/
def accentedFields : List Field :=
  [{ column := "PRÉMIO", type := .decimal, length := 9, decimals := 2 },
   { column := "ID", type := .integer, isKey := true }]

/-- Their declarations line up. -/
theorem accentedFields_line_up :
    let c := (unsupplied.begin unsuppliedRequest ⟨0⟩ {}).context
    accentedFields ≠ [] ∧ (∀ f ∈ accentedFields, f.Unbroken) ∧
    valueLines (hostVars.value c ["10"] (some accentedFields)).toList =
      (hostDeclarations "10  " accentedFields).map Declaration.line ∧
    LinedUp (hostDeclarations "10  " accentedFields) accentedFields Field.cobolName Field.picture ∧
    (hostDeclarations "10  " accentedFields).map Declaration.line =
      ["10  PRÉMIO   PIC S9(7)V9(2) COMP-3.", "10  ID       PIC S9(9) COMP."] := by
  intro c
  have hnames : ∀ f ∈ accentedFields, f.Unbroken :=
    List.forall_mem_cons.2 ⟨⟨by decide, nofun⟩, List.forall_mem_singleton.2 ⟨by decide, nofun⟩⟩
  have hne : accentedFields ≠ [] := by decide
  obtain ⟨-, hlined, ⟨above, lead, hlead, hlines, -⟩, -⟩ :=
    declarations_line_up c ["10"] accentedFields hne hnames
  obtain ⟨rfl, rfl⟩ := hlead (by decide +kernel)
  have hfront : spaces c.column ++ level ["10"] ++ "  " = "10  " := by decide +kernel
  rw [hfront] at hlines
  refine ⟨hne, hnames, ?_, (hlined "10  ").1, by decide +kernel⟩
  rw [hlines, List.map_eq_flatMap]
  rfl

/-- A request with these fields, and with a call of `HOSTVARS` as its insurance line whose level text
has a line break. -/
def brokenLevelRequest : Request :=
  { unsuppliedRequest with
    insuranceLine := "&HOSTVARS|5\n10|"
    tableFields := some accentedFields }

/-- Then every declaration is on two lines, of which the first one declares nothing. -/
theorem brokenLevel_lines :
    (∀ f ∈ accentedFields, f.Unbroken) ∧ accentedFields.length = 2 ∧
    unsupplied.preview brokenLevelRequest "&LOB|\n" ⟨0⟩ =
      .ok ["5", "10  PRÉMIO   PIC S9(7)V9(2) COMP-3.", "5", "10  ID       PIC S9(9) COMP."] :=
  ⟨List.forall_mem_cons.2 ⟨⟨by decide, nofun⟩, List.forall_mem_singleton.2 ⟨by decide, nofun⟩⟩, rfl,
    Effect.eq_ok_of_toOption (by decide +kernel)⟩

end Stencil.Cobol
