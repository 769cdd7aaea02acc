import Stencil.Proofs.Emit.Aligned

/-!
# Members and bound keys

A generated class declares a member for each column, with a getter and a setter (`Property`), and
copies the rows of a result set to its members. A prepared statement compares the key columns with
placeholders, to which the values of the getters are bound by their numbers. These parts come from
five emitters that may be called anywhere in a template, and fit together all the same: those of the
members render all fields of the bound table, those of the statement its key fields, whatever the
provider of the schema answers at which time (`run_fits`).
-/

namespace Stencil.Java

open Engine Naming Text

/-! ## Properties -/

/-- The names that a field has in the generated class. -/
structure Property where
  type : String
  member : String
  getter : String
  setter : String

namespace Property

/-- The names of a field. -/
def ofField (f : Field) : Property :=
  ⟨f.javaType, Java.member f, "get" ++ property f, "set" ++ property f⟩

section

variable (f : Field)

@[simp]
theorem ofField_type : (ofField f).type = f.javaType := by rw [ofField]

@[simp]
theorem ofField_member : (ofField f).member = Java.member f := by rw [ofField]

@[simp]
theorem ofField_getter : (ofField f).getter = "get" ++ property f := by rw [ofField]

@[simp]
theorem ofField_setter : (ofField f).setter = "set" ++ property f := by rw [ofField]

end

/-- The declaration of the member. -/
def declaration (p : Property) : String := "private " ++ p.type ++ " " ++ p.member ++ ";"

/-- The method that returns the member. -/
def getterLines (p : Property) : List String :=
  ["public " ++ p.type ++ " " ++ p.getter ++ "() \x7b", "    return " ++ p.member ++ ";", "\x7d"]

/-- The method that assigns the member. -/
def setterLines (p : Property) : List String :=
  ["public void " ++ p.setter ++ "(" ++ p.type ++ " " ++ p.member ++ ") \x7b",
   "    this." ++ p.member ++ " = " ++ p.member ++ ";", "\x7d"]

/-- Both methods, the second one behind an empty line; other lines are indented. -/
def methodLines (indent : Nat) (p : Property) : List String :=
  p.getterLines.map (spaces indent ++ ·) ++ "" :: p.setterLines.map (spaces indent ++ ·)

/-- A call of the getter. -/
def got (p : Property) (object : String) : String := object ++ "." ++ p.getter ++ "()"

/-- A call of the setter. -/
def assignment (p : Property) (object value : String) : String :=
  object ++ "." ++ p.setter ++ "(" ++ value ++ ");"

end Property

/-- The member declarations. -/
def declarations (fs : List Field) : List String := fs.map fun f => (Property.ofField f).declaration

/-- The lines of the getters and setters, with an empty line between fields. -/
def methods (indent : Nat) (fs : List Field) : List String :=
  [""].intercalate (fs.map fun f => (Property.ofField f).methodLines indent)

/-- The statements that assign the columns of a row to the members. -/
def assignments (ps : List String) (fs : List Field) : List String :=
  fs.map fun f => (Property.ofField f).assignment ((param ps 1).getD "row")
    (readColumn ((param ps 0).getD "rs") f)

/-- A column compared with a placeholder. -/
def comparison (f : Field) : String := f.column ++ " = ?"

/-- The statements that bind the values of the getters to the placeholders, by their numbers
from 1. -/
def bindings (ps : List String) (fs : List Field) : List String :=
  fs.mapIdx fun k f => (param ps 0).getD "stmt" ++ ".set" ++ f.jdbcAccessor ++ "(" ++
    toString (k + 1) ++ ", " ++ (Property.ofField f).got ((param ps 1).getD "key") ++ ");"

/-! ## Entries -/

/-- What the emitters of the members give for the fields `fs`: an entry for each, in their order,
with the same names and types. -/
structure MembersFit (c : Context) (ps : List String) (fs : List Field) : Prop where
  members : members.value c ps (some fs) = joinContinued (declarations fs) "" c.column
  accessors : accessors.value c ps (some fs) = "\n".intercalate (methods c.column fs)
  readRow : readRow.value c ps (some fs) = joinContinued (assignments ps fs) "" c.column

/-- What the emitters of the statement give for the key fields `fs`: a comparison and a binding for
each, in their order. -/
structure KeysFit (c : Context) (ps : List String) (fs : List Field) : Prop where
  keyWhere : keyWhere.value c ps (some fs) = "WHERE " ++ " AND ".intercalate (fs.map comparison)
  bindKeys : bindKeys.value c ps (some fs) = joinContinued (bindings ps fs) "" c.column

/-- The methods of a field. -/
theorem accessorLines_eq (f : Field) : accessorLines f =
    (Property.ofField f).getterLines ++ "" :: (Property.ofField f).setterLines := by
  -- the texts in front of a name go on into it
  have hget : " get" = " " ++ "get" := by decide
  have hset : "public void set" = "public void " ++ "set" := by decide
  simp only [accessorLines, Property.getterLines, Property.setterLines, Property.ofField_type,
    Property.ofField_member, Property.ofField_getter, Property.ofField_setter, hget, hset,
    String.append_assoc, List.cons_append, List.nil_append, -String.reduceAppend]

theorem indentedBlock_eq (indent : Nat) (f : Field) :
    indentedBlock indent (accessorLines f) =
      "\n".intercalate ((Property.ofField f).methodLines indent) := by
  have hindented {ls : List String} (hls : "" ∉ ls) :
      (ls.map fun l => if l = "" then "" else spaces indent ++ l) = ls.map (spaces indent ++ ·) :=
    List.map_congr_left fun l hl => if_neg (ne_of_mem_of_not_mem hl hls)
  have hgetter : "" ∉ (Property.ofField f).getterLines := by simp [Property.getterLines]
  have hsetter : "" ∉ (Property.ofField f).setterLines := by simp [Property.setterLines]
  rw [indentedBlock, accessorLines_eq, List.map_append, List.map_cons, if_pos rfl,
    hindented hgetter, hindented hsetter]
  rfl

/-- Blocks of lines with an empty line between them are lines themselves. -/
theorem intercalate_blocks {blocks : List (List String)} (hblocks : ∀ ls ∈ blocks, ls ≠ []) :
    "\n\n".intercalate (blocks.map fun ls => "\n".intercalate ls) =
      "\n".intercalate ([""].intercalate blocks) := by
  induction blocks with
  | nil => rfl
  | cons ls blocks ih =>
    cases blocks with
    | nil => rw [List.map_singleton, String.intercalate_singleton, List.intercalate_singleton]
    | cons ks blocks =>
      have hls := hblocks ls List.mem_cons_self
      have hks := hblocks ks (List.mem_cons_of_mem ls List.mem_cons_self)
      have hrest : [""].intercalate (ks :: blocks) ≠ [] := by
        cases blocks <;> simp [List.intercalate_cons_cons, hks]
      have hempty : "\n".intercalate ("" :: [""].intercalate (ks :: blocks)) =
          "\n" ++ "\n".intercalate ([""].intercalate (ks :: blocks)) := by
        rw [String.intercalate_cons_of_ne_nil hrest, String.empty_append]
      have hbreaks : "\n\n" = "\n" ++ "\n" := by decide
      rw [List.map_cons, List.map_cons, String.intercalate_cons_cons, ← List.map_cons,
        ih fun l hl => hblocks l (List.mem_cons_of_mem ls hl), List.intercalate_cons_cons,
        List.append_assoc, List.singleton_append,
        String.intercalate_append_of_ne_nil hls (List.cons_ne_nil _ _), hempty, hbreaks,
        String.append_assoc, String.append_assoc, String.append_assoc]

theorem membersFit (c : Context) (ps : List String) (fs : List Field) : MembersFit c ps fs where
  members := by
    simp only [declarations, Property.declaration, Property.ofField_type, Property.ofField_member]
    exact render_continued "" c.column _ fs
  accessors := by
    have hblocks : ∀ ls ∈ fs.map fun f => (Property.ofField f).methodLines c.column, ls ≠ [] := by
      simp [Property.methodLines]
    rw [methods, ← intercalate_blocks hblocks, List.map_map]
    exact congrArg ("\n\n".intercalate ·)
      (List.map_congr_left fun f _ => indentedBlock_eq c.column f)
  readRow := by
    have hset : ".set" = "." ++ "set" := by decide
    refine (render_continued "" c.column _ fs).trans (congrArg (joinContinued · "" c.column) ?_)
    refine List.map_congr_left fun f _ => ?_
    simp only [Property.assignment, Property.ofField_setter, hset, String.append_assoc,
      -String.reduceAppend]

/-- The comparisons stand behind one WHERE. -/
theorem keyWhere_text {c : Context} {ps : List String} {fs : List Field} (hfs : fs ≠ []) :
    keyWhere.text c ps fs = "WHERE " ++ " AND ".intercalate (fs.map comparison) := by
  obtain ⟨f, fs, rfl⟩ := List.exists_cons_of_ne_nil hfs
  have hrest : (fs.mapIdx fun i f => (if i + 1 = 0 then "WHERE " else "") ++ f.column ++ " = ?") =
      fs.map comparison :=
    List.mapIdx_eq_iff.2 fun i => by
      simp only [List.getElem?_map, if_neg i.succ_ne_zero, String.empty_append]
      rfl
  show " AND ".intercalate ((f :: fs).mapIdx _) = _
  rw [List.mapIdx_cons, hrest, if_pos rfl, String.append_assoc, String.intercalate_cons_append]
  rfl

theorem keysFit (c : Context) (ps : List String) {fs : List Field} (hfs : fs ≠ []) :
    KeysFit c ps fs where
  keyWhere := keyWhere_text hfs
  bindKeys := by
    have hget : ".get" = "." ++ "get" := by decide
    have hcall : "());" = "()" ++ ");" := by decide
    refine congrArg (joinContinued · "" c.column) (congrArg (fs.mapIdx ·) ?_)
    funext k f
    simp only [Property.got, Property.ofField_getter, hget, hcall, String.append_assoc,
      -String.reduceAppend]

/-! ## Lines and placeholders -/

/-- When no name holds a line break, the entries of the members stand on lines of their own: one
for a declaration or an assignment, seven for the methods. -/
structure MembersByLine (c : Context) (ps : List String) (fs : List Field) : Prop where
  members : (members.value c ps (some fs)).toList.splitOn '\n' =
    (placed "" c.column [] [] (declarations fs)).map Placed.line
  accessors : (accessors.value c ps (some fs)).toList.splitOn '\n' =
    (methods c.column fs).map String.toList
  readRow : (readRow.value c ps (some fs)).toList.splitOn '\n' =
    (placed "" c.column [] [] (assignments ps fs)).map Placed.line

/-- When no name holds a line break, nor what the statement and the object are called, there is
one line for each binding. When no column has a question mark in its name, those of the statement
are its placeholders, and in front of each stands the comparison of a column. -/
structure KeysByPlace (c : Context) (ps : List String) (fs : List Field) : Prop where
  keyWhere : (∀ f ∈ fs, '?' ∉ f.column.toList) →
    (keyWhere.value c ps (some fs)).toList.splitOn '?' =
      (fs.mapIdx fun k f => (if k = 0 then "WHERE " else " AND ") ++ f.column ++ " = ").map
        String.toList ++ [[]]
  bindKeys : (∀ f ∈ fs, Unbroken f.column) → (∀ p ∈ ps, Unbroken p) →
    (bindKeys.value c ps (some fs)).toList.splitOn '\n' =
      (placed "" c.column [] [] (bindings ps fs)).map Placed.line

section

variable {c : Context} {ps : List String} {fs : List Field}

theorem methods_unbroken (hnames : ∀ f ∈ fs, Unbroken f.column) (indent : Nat) :
    ∀ line ∈ methods indent fs, Unbroken line := by
  intro line hline
  rcases mem_of_mem_intercalate hline with hline | ⟨block, hblock, hline⟩
  · obtain rfl := List.mem_singleton.1 hline
    decide
  · obtain ⟨f, hf, rfl⟩ := List.mem_map.1 hblock
    have hcolumn := hnames f hf
    have hmethods : ∀ l ∈ (Property.ofField f).methodLines indent, Unbroken l := by
      simp +decide [Property.methodLines, Property.getterLines, Property.setterLines,
        javaType_unbroken, member_unbroken hcolumn, property_unbroken hcolumn]
    exact hmethods line hline

theorem membersByLine (hfs : fs ≠ []) (hnames : ∀ f ∈ fs, Unbroken f.column)
    (hps : ∀ p ∈ ps, Unbroken p) : MembersByLine c ps fs where
  members := by
    have hdeclarations : ∀ text ∈ declarations fs, Unbroken text := by
      intro text htext
      obtain ⟨f, hf, rfl⟩ := List.mem_map.1 htext
      simp +decide [Property.declaration, javaType_unbroken, member_unbroken (hnames f hf)]
    rw [(membersFit c ps fs).members]
    exact splitOn_joinContinued (by decide) hdeclarations (by simpa [declarations] using hfs)
  accessors := by
    rw [(membersFit c ps fs).accessors]
    refine splitOn_intercalate (methods_unbroken hnames c.column) ?_
    obtain ⟨f, fs, rfl⟩ := List.exists_cons_of_ne_nil hfs
    cases fs <;> simp [methods, List.intercalate_cons_cons, Property.methodLines]
  readRow := by
    have hassignments : ∀ text ∈ assignments ps fs, Unbroken text := by
      intro text htext
      obtain ⟨f, hf, rfl⟩ := List.mem_map.1 htext
      simp +decide [Property.assignment, property_unbroken (hnames f hf), param_getD_unbroken hps,
        readColumn_unbroken, hnames f hf]
    rw [(membersFit c ps fs).readRow]
    exact splitOn_joinContinued (by decide) hassignments (by simpa [assignments] using hfs)

theorem splitOn_comparisons {lead : String} (hlead : '?' ∉ lead.toList)
    (hfs : fs ≠ []) (hnames : ∀ f ∈ fs, '?' ∉ f.column.toList) :
    (lead ++ " AND ".intercalate (fs.map comparison)).toList.splitOn '?' =
      (fs.mapIdx fun k f => (if k = 0 then lead else " AND ") ++ f.column ++ " = ").map
        String.toList ++ [[]] := by
  -- what joins two comparisons leads the second one
  induction fs generalizing lead with
  | nil => exact absurd rfl hfs
  | cons f fs ih =>
    have hpiece : '?' ∉ (lead ++ f.column ++ " = ").toList := by
      simp +decide [String.toList_append, hlead, hnames f List.mem_cons_self]
    cases fs with
    | nil =>
      have htext : (lead ++ " AND ".intercalate [comparison f]).toList =
          (lead ++ f.column ++ " = ").toList ++ '?' :: [] := by
        simp [comparison, String.toList_append]
      rw [List.map_singleton, htext, List.splitOn_append_cons_self_of_not_mem hpiece]
      rfl
    | cons g fs =>
      have htext : (lead ++ " AND ".intercalate (comparison f :: (g :: fs).map comparison)).toList =
          (lead ++ f.column ++ " = ").toList ++
            '?' :: (" AND " ++ " AND ".intercalate ((g :: fs).map comparison)).toList := by
        simp [comparison, String.toList_append, String.intercalate_cons_cons]
      have hand : '?' ∉ " AND ".toList := by decide
      have hlater := ih hand (List.cons_ne_nil g fs)
        fun k hk => hnames k (List.mem_cons_of_mem f hk)
      rw [List.map_cons, htext, List.splitOn_append_cons_self_of_not_mem hpiece, hlater,
        List.mapIdx_cons]
      simp

theorem keysByPlace (hfs : fs ≠ []) : KeysByPlace c ps fs where
  keyWhere hnames := by
    rw [(keysFit c ps hfs).keyWhere]
    exact splitOn_comparisons (by decide) hfs hnames
  bindKeys hnames hps := by
    have hbindings : ∀ text ∈ bindings ps fs, Unbroken text := by
      intro text htext
      obtain ⟨k, hk, rfl⟩ := List.mem_mapIdx.1 htext
      have hcolumn := hnames _ (List.getElem_mem hk)
      simp +decide [Property.got, property_unbroken hcolumn, param_getD_unbroken hps,
        jdbcAccessor_unbroken]
    rw [(keysFit c ps hfs).bindKeys]
    exact splitOn_joinContinued (by decide) hbindings (by simpa [bindings] using hfs)

end

/-! ## Runs -/

/-- The emitters of the members. -/
def memberEmitters : List Emitter := [members, accessors, readRow]

/-- The emitters of the statement. -/
def keyEmitters : List Emitter := [keyWhere, bindKeys]

/-- **The fragments of a class fit together.** In a run whose provider may be another one at every
step, there are two answers for the emitters that are called while the table of `b` is bound, in
whatever template and with whatever parameters: one for those of the statement, and one for those
of the members. Without key fields, `KEYWHERE` and `BINDKEYS` both give their placeholders;
otherwise the one compares a column for each of them, and the other has a statement for each that
binds the number of the comparison from the getter of the column with the setter of its type.
Without fields, `FIELDS`, `ACCESSORS` and `READROW` give their placeholders; otherwise all three
go through the same properties: the members are declared, returned and assigned with the same
types, and `READROW` calls their setters with the values of the columns. -/
theorem run_fits (e : Engine) (q : Request) (source : Source) (now : Moment) (sink : Sink)
    (answers : Nat → Provider) (b : Binding) :
    ∃ keys all : Option (List Field),
      (∀ m ∈ keyEmitters, Backend.java.registry.find? m.name = some m.trigger ∧
        Answered e answers (e.start q source now sink) b m keys) ∧
      (∀ m ∈ memberEmitters, Backend.java.registry.find? m.name = some m.trigger ∧
        Answered e answers (e.start q source now sink) b m all) ∧
      ∀ c ps,
        (match keys with
        | none => ∀ m ∈ keyEmitters, m.value c ps keys = m.placeholder c ps
        | some fs => fs ≠ [] ∧ KeysFit c ps fs ∧ KeysByPlace c ps fs) ∧
        match all with
        | none => ∀ m ∈ memberEmitters, m.value c ps all = m.placeholder c ps
        | some fs => fs ≠ [] ∧ MembersFit c ps fs ∧
            ((∀ f ∈ fs, Unbroken f.column) → (∀ p ∈ ps, Unbroken p) → MembersByLine c ps fs) := by
  obtain ⟨keys, hkeys, hkeyCalls⟩ := one_answer e answers (e.start q source now sink) b .keys
  obtain ⟨all, hall, hallCalls⟩ := one_answer e answers (e.start q source now sink) b .all
  have hkeySelection : ∀ m ∈ keyEmitters, m ∈ emitters ∧ m.selection = .keys := by
    simp [keyEmitters, emitters, keyWhere, bindKeys]
  have hallSelection : ∀ m ∈ memberEmitters, m ∈ emitters ∧ m.selection = .all := by
    simp [memberEmitters, emitters, members, accessors, readRow]
  refine ⟨keys, all, fun m hm => ⟨find?_emitter (hkeySelection m hm).1,
    hkeyCalls m (hkeySelection m hm).2⟩, fun m hm => ⟨find?_emitter (hallSelection m hm).1,
    hallCalls m (hallSelection m hm).2⟩, fun c ps => ⟨?_, ?_⟩⟩
  · cases keys with
    | none => exact fun m _ => rfl
    | some fs => exact ⟨hkeys fs rfl, keysFit c ps (hkeys fs rfl), keysByPlace (hkeys fs rfl)⟩
  · cases all with
    | none => exact fun m _ => rfl
    | some fs => exact ⟨hall fs rfl, membersFit c ps fs, membersByLine (hall fs rfl)⟩

/-- A Java engine without a provider of its own. -/
def unsupplied : Engine := { Cobol.unsupplied with registry := Backend.java.registry }

/-- A provider that knows a table only when it is asked for its key fields and for its fields for
the first time. -/
def fleeting (i : Nat) : Provider :=
  if i = 4 ∨ i = 18 then
    Schema.provider ⟨[⟨"RATE", 1, [{ column := "VALID_FROM", type := .date, isKey := true }]⟩]⟩
  else .absent

/-- A template with all five emitters. -/
def allFragments : Source :=
  .ofBytes (Text.encode "&KEYWHERE|\n&BINDKEYS|\n&FIELDS|\n&ACCESSORS|\n&READROW|\n")

/-- Its run comes to the token of `KEYWHERE` at its second step and goes on with the value for the
key fields. The key that is compared is bound later on, and the members that are declared are
returned, assigned and read, although the provider does not know the table any more. -/
theorem allFragments_fit :
    let first := unsupplied.start Cobol.unsuppliedRequest allFragments ⟨0⟩ {}
    let t : Token := ⟨'&', "KEYWHERE".toList, .pipe []⟩
    ∃ keys r rest s,
      CallAt unsupplied fleeting first ⟨"RATE", 0, none⟩ 2
        ⟨r, Rules.tokenPlan 0 t keyWhere.trigger >>= rest, []⟩ 0 t keyWhere rest ∧
      stageAt unsupplied fleeting first 6 = some ⟨s, rest (some
        (keyWhere.value (showing 0 t (some 0) r).context [] keys)), []⟩ ∧
      (∀ c ps,
        match keys with
        | none => True
        | some fs => fs ≠ [] ∧ KeysFit c ps fs) ∧
      (stageAt unsupplied fleeting first 41).map (·.run.sink.lines.toList) =
        some ["WHERE VALID_FROM = ?",
          "stmt.setObject(1, key.getValidFrom());",
          "private LocalDate validFrom;",
          "public LocalDate getValidFrom() \x7b",
          "    return validFrom;",
          "\x7d",
          "",
          "public void setValidFrom(LocalDate validFrom) \x7b",
          "    this.validFrom = validFrom;",
          "\x7d",
          "row.setValidFrom(rs.getObject(\"VALID_FROM\", LocalDate.class));"] := by
  intro first t
  obtain ⟨keys, all, hkeys, -, hreads⟩ := run_fits unsupplied Cobol.unsuppliedRequest allFragments
    ⟨0⟩ {} fleeting ⟨"RATE", 0, none⟩
  have hlines : allFragments.lines = ⟨1, "&KEYWHERE|"⟩ :: [⟨2, "&BINDKEYS|"⟩, ⟨3, "&FIELDS|"⟩,
      ⟨4, "&ACCESSORS|"⟩, ⟨5, "&READROW|"⟩] := by decide +kernel
  have hpieces : pieces "&KEYWHERE|".toList = .token t :: [] := by decide +kernel
  have hname : t.name = keyWhere.name := by decide +kernel
  have hanswered := hkeys keyWhere List.mem_cons_self
  have hfound : unsupplied.registry.find? t.name = some keyWhere.trigger := hname ▸ hanswered.1
  obtain ⟨rest, hstage⟩ := stageAt_token unsupplied fleeting Cobol.unsuppliedRequest ⟨0⟩ {} hlines
    (by decide +kernel) hpieces hfound
  have hbound : (counted (beginLine 1 (unsupplied.begin Cobol.unsuppliedRequest ⟨0⟩
      {}))).context.table = some ⟨"RATE", 0, none⟩ := by decide +kernel
  have hcall : CallAt unsupplied fleeting first ⟨"RATE", 0, none⟩ 2 _ 0 t keyWhere rest :=
    ⟨hstage, hbound, rfl⟩
  obtain ⟨s, hdone⟩ := hanswered.2 _ (.refl _) _ _ _ _ _ hcall
  refine ⟨keys, _, rest, s, hcall, hdone, fun c ps => ?_, by decide +kernel⟩
  have hread := (hreads c ps).1
  cases keys with
  | none => trivial
  | some fs => exact ⟨hread.1, hread.2.1⟩

/-- A request that gives a key column whose name has a line break. -/
def brokenRequest : Request :=
  { Cobol.unsuppliedRequest with tableFields := some [{ column := "A\nB", isKey := true }] }

/-- Then there are two lines for the binding of one comparison. -/
theorem brokenKey_lines :
    unsupplied.preview brokenRequest "&BINDKEYS|\n" ⟨0⟩ =
      .ok ["stmt.setString(1, key.getA", "b());"] ∧
    unsupplied.preview brokenRequest "&KEYWHERE|\n&BINDKEYS|\n" ⟨0⟩ =
      .ok ["WHERE A", "B = ?", "stmt.setString(1, key.getA", "b());"] :=
  ⟨Effect.eq_ok_of_toOption (by decide +kernel), Effect.eq_ok_of_toOption (by decide +kernel)⟩

end Stencil.Java
