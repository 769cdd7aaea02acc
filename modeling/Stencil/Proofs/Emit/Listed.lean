import Stencil.Proofs.Emit.Placed
import Stencil.Proofs.Emit.Split
import Stencil.Proofs.Run.Answered

/-!
# Columns and host variables

Embedded SQL matches columns and host variables by their positions only. The emitters that list
either of them, or declare, initialize or count the host variables, all render the fields of the
bound table, each once and in order (`Corresponding`); when no name holds a line break, each on a
line of its own (`LineByLine`). `run_corresponds` says that they render the same fields wherever
they are called in a run, whatever the provider of the schema answers at which time.
-/

namespace Stencil.Cobol

open Engine Naming Text

/-- The emitters that go through all fields of the bound table. -/
def listers : List Emitter :=
  [selectColumns, insertColumns, intoVars, insertValues, fetch, insertStatement, declareCursor,
   hostVars, nullIndicators, moveInitial, fieldCount]

/-! ## Entries -/

/-- The host variables of some fields, in order. -/
def hostsOf (qualifier : Option String) (fs : List Field) : List String :=
  fs.map (hostVar qualifier)

/-- The statements that initialize host variables. -/
def moves (qualifier : Option String) (fs : List Field) : List String :=
  fs.map fun f => "MOVE " ++ f.initialValue ++ " TO " ++ ofRecord qualifier f

/-- The lines of declarations, one for each field, with the clauses aligned. -/
def declarationLines (indent : Nat) (level : String) (name clause : Field → String)
    (fs : List Field) : List String :=
  fs.map fun f => spaces indent ++
    (level ++ "  " ++ padTo (widest (fs.map name)) (name f) ++ "  " ++ clause f ++ ".")

/-- The declarations of host variables. -/
def hostLines (indent : Nat) (level : String) (fs : List Field) : List String :=
  declarationLines indent level Field.cobolName Field.picture fs

/-- The declarations of null indicators. -/
def nullLines (indent : Nat) (level : String) (fs : List Field) : List String :=
  declarationLines indent level (fun f => f.cobolName ++ "-NI") (fun _ => "PIC S9(4) COMP") fs

/-- What the emitters give for the fields `fs`: as many entries as there are fields, in their order,
whether of columns or of host variables, these with the qualifier of the call. -/
structure Corresponding (c : Context) (ps : List String) (fs : List Field) : Prop where
  selectColumns : selectColumns.value c ps (some fs) = joinContinued (columnsOf fs) "," c.column
  insertColumns : insertColumns.value c ps (some fs) = joinContinued (columnsOf fs) "," c.column
  intoVars : intoVars.value c ps (some fs) = joinContinued (hostsOf (param ps 0) fs) "," c.column
  insertValues : insertValues.value c ps (some fs) =
    joinContinued (hostsOf (param ps 0) fs) "," c.column
  fetch : fetch.value c ps (some fs) =
    "FETCH " ++ cursorName ps ++ "\n" ++ spaces c.column ++ "  INTO " ++
      joinContinued (hostsOf (param ps 1) fs) "," (c.column + 7)
  insertStatement : insertStatement.value c ps (some fs) =
    "INSERT INTO " ++ tableOr c ++
      "\n" ++ spaces c.column ++ "       (" ++
        joinContinued (columnsOf fs) "," (c.column + 8) ++ ")" ++
      "\n" ++ spaces c.column ++ "VALUES (" ++
        joinContinued (hostsOf (param ps 0) fs) "," (c.column + 8) ++ ")"
  declareCursor : declareCursor.value c ps (some fs) =
    "DECLARE " ++ cursorName ps ++ " CURSOR FOR" ++
      "\n" ++ spaces c.column ++ "    SELECT " ++
        joinContinued (columnsOf fs) "," (c.column + 11) ++
      "\n" ++ spaces c.column ++ "      FROM " ++ tableOr c ++
      cursorKeys c.column (param ps 1) (marked fs)
  hostVars : hostVars.value c ps (some fs) = "\n".intercalate (hostLines c.column (level ps) fs)
  nullIndicators : nullIndicators.value c ps (some fs) =
    "\n".intercalate (nullLines c.column (level ps) fs)
  moveInitial : moveInitial.value c ps (some fs) = joinContinued (moves (param ps 0) fs) "" c.column
  fieldCount : fieldCount.value c ps (some fs) = toString fs.length

theorem indented_declarations (indent : Nat) (level : String) (name clause : Field → String)
    (fs : List Field) :
    indented indent (declarations level (fs.map fun f => (name f, clause f))) =
      "\n".intercalate (declarationLines indent level name clause fs) := by
  rw [indented, declarations, List.map_map, List.map_map, List.map_map]
  rfl

theorem corresponding (c : Context) (ps : List String) (fs : List Field) :
    Corresponding c ps fs where
  selectColumns := columnList_eq
  insertColumns := columnList_eq
  intoVars := render_continued "," c.column (hostVar (param ps 0)) fs
  insertValues := render_continued "," c.column (hostVar (param ps 0)) fs
  fetch := by
    rw [hostsOf, ← render_continued]
    rfl
  insertStatement := by
    rw [hostsOf, ← render_continued, ← columnList_eq]
    rfl
  declareCursor := by
    rw [← columnList_eq]
    rfl
  hostVars := indented_declarations c.column (level ps) _ _ fs
  nullIndicators := indented_declarations c.column (level ps) _ _ fs
  moveInitial := render_continued "" c.column _ fs
  fieldCount := rfl

/-! ## Lines -/

/-- When no name holds a line break, the entries stand on lines of their own: as many as there are
fields, without other lines in between. -/
structure LineByLine (c : Context) (ps : List String) (fs : List Field) : Prop where
  columns : ∀ m ∈ [selectColumns, insertColumns],
    (m.value c ps (some fs)).toList.splitOn '\n' =
      (placed "," c.column [] [] (columnsOf fs)).map Placed.line
  hosts : ∀ m ∈ [intoVars, insertValues],
    (m.value c ps (some fs)).toList.splitOn '\n' =
      (placed "," c.column [] [] (hostsOf (param ps 0) fs)).map Placed.line
  fetch : OnLines (fetch.value c ps (some fs)) "," (c.column + 7) (hostsOf (param ps 1) fs)
  insertStatement :
    OnLines (insertStatement.value c ps (some fs)) "," (c.column + 8) (columnsOf fs) ∧
    OnLines (insertStatement.value c ps (some fs)) "," (c.column + 8) (hostsOf (param ps 0) fs)
  declareCursor : OnLines (declareCursor.value c ps (some fs)) "," (c.column + 11) (columnsOf fs)
  hostVars : (hostVars.value c ps (some fs)).toList.splitOn '\n' =
    (hostLines c.column (level ps) fs).map String.toList
  nullIndicators : (nullIndicators.value c ps (some fs)).toList.splitOn '\n' =
    (nullLines c.column (level ps) fs).map String.toList
  moveInitial : (moveInitial.value c ps (some fs)).toList.splitOn '\n' =
    (placed "" c.column [] [] (moves (param ps 0) fs)).map Placed.line

section

variable {c : Context} {ps : List String} {fs : List Field}

theorem hostVar_unbroken {qualifier : Option String} {f : Field}
    (hqualifier : ∀ q, qualifier = some q → Unbroken q) (hf : f.Unbroken) :
    Unbroken (hostVar qualifier f) := by
  unfold hostVar
  split
  · next q => simp +decide [hqualifier q rfl, hf.cobolName]
  · simp +decide [hf.cobolName]

theorem ofRecord_unbroken {qualifier : Option String} {f : Field}
    (hqualifier : ∀ q, qualifier = some q → Unbroken q) (hf : f.Unbroken) :
    Unbroken (ofRecord qualifier f) := by
  unfold ofRecord
  split
  · next q => simp +decide [hqualifier q rfl, hf.cobolName]
  · exact hf.cobolName

theorem picture_unbroken (f : Field) : Unbroken f.picture := by
  have hparens (n : Nat) : Unbroken (Field.parens n) := by simp +decide [Field.parens]
  have hpacked (whole scale : Nat) : Unbroken (Field.packedPicture whole scale) := by
    unfold Field.packedPicture
    split
    · simp +decide [hparens]
    · split <;> simp +decide [hparens]
  unfold Field.picture
  split <;> simp +decide [hparens, hpacked]

theorem moves_unbroken {qualifier : Option String}
    (hqualifier : ∀ q, qualifier = some q → Unbroken q) (hfs : ∀ f ∈ fs, f.Unbroken) :
    ∀ line ∈ moves qualifier fs, Unbroken line := by
  intro line hline
  obtain ⟨f, hf, rfl⟩ := List.mem_map.1 hline
  have hinitial : Unbroken f.initialValue := by
    unfold Field.initialValue
    split <;> decide
  simp +decide [hinitial, ofRecord_unbroken hqualifier (hfs f hf)]

theorem declarationLines_unbroken {indent : Nat} {level : String} {name clause : Field → String}
    (hlevel : Unbroken level) (hname : ∀ f ∈ fs, Unbroken (name f))
    (hclause : ∀ f, Unbroken (clause f)) :
    ∀ line ∈ declarationLines indent level name clause fs, Unbroken line := by
  intro line hline
  obtain ⟨f, hf, rfl⟩ := List.mem_map.1 hline
  simp +decide [hlevel, hname f hf, hclause f]

theorem lineByLine (hfs : fs ≠ []) (hnames : ∀ f ∈ fs, f.Unbroken) (hps : ∀ p ∈ ps, Unbroken p) :
    LineByLine c ps fs := by
  have hqualifier (i : Nat) (q : String) (hq : param ps i = some q) : Unbroken q :=
    param_unbroken hps hq
  have hlevel : Unbroken (level ps) := by
    unfold level
    cases hparam : param ps 0 with
    | none => decide
    | some l => exact hqualifier 0 l hparam
  have hcolumns : ∀ s ∈ columnsOf fs, Unbroken s := by
    simpa [columnsOf] using fun f hf => (hnames f hf).column
  have hhosts (i : Nat) : ∀ s ∈ hostsOf (param ps i) fs, Unbroken s := by
    simpa [hostsOf] using fun f hf => hostVar_unbroken (hqualifier i) (hnames f hf)
  have hcolumnsNe : columnsOf fs ≠ [] := by simpa [columnsOf] using hfs
  have hhostsNe (i : Nat) : hostsOf (param ps i) fs ≠ [] := by simpa [hostsOf] using hfs
  have hcomma : Unbroken "," := by decide
  have h := corresponding c ps fs
  refine ⟨?_, ?_, ?_, ⟨?_, ?_⟩, ?_, ?_, ?_, ?_⟩
  · simp only [List.forall_mem_cons, h.selectColumns, h.insertColumns]
    exact ⟨splitOn_joinContinued hcomma hcolumns hcolumnsNe,
      splitOn_joinContinued hcomma hcolumns hcolumnsNe, List.forall_mem_nil _⟩
  · simp only [List.forall_mem_cons, h.intoVars, h.insertValues]
    exact ⟨splitOn_joinContinued hcomma (hhosts 0) (hhostsNe 0),
      splitOn_joinContinued hcomma (hhosts 0) (hhostsNe 0), List.forall_mem_nil _⟩
  · exact onLines_joined (h.fetch.trans String.append_empty.symm) hcomma (hhosts 1) (hhostsNe 1)
  · have htext := h.insertStatement
    rw [String.append_assoc, String.append_assoc, String.append_assoc, String.append_assoc,
      String.append_assoc] at htext
    exact onLines_joined htext hcomma hcolumns hcolumnsNe
  · exact onLines_joined h.insertStatement hcomma (hhosts 0) (hhostsNe 0)
  · have htext := h.declareCursor
    rw [String.append_assoc, String.append_assoc, String.append_assoc, String.append_assoc] at htext
    exact onLines_joined htext hcomma hcolumns hcolumnsNe
  · rw [h.hostVars]
    exact splitOn_intercalate (declarationLines_unbroken hlevel (fun f hf => (hnames f hf).cobolName)
      picture_unbroken) (by simpa [hostLines, declarationLines] using hfs)
  · rw [h.nullIndicators]
    have hname (f : Field) (hf : f ∈ fs) : Unbroken (f.cobolName ++ "-NI") :=
      unbroken_append.2 ⟨(hnames f hf).cobolName, by decide⟩
    exact splitOn_intercalate (declarationLines_unbroken hlevel hname fun f => by decide)
      (by simpa [nullLines, declarationLines] using hfs)
  · rw [h.moveInitial]
    exact splitOn_joinContinued (by decide) (moves_unbroken (hqualifier 0) hnames)
      (by simpa [moves] using hfs)

end

/-! ## Runs -/

theorem selection_listers : ∀ m ∈ listers, m.selection = .all := by
  simp only [listers, List.forall_mem_cons]
  exact ⟨rfl, rfl, rfl, rfl, rfl, rfl, rfl, rfl, rfl, rfl, rfl, List.forall_mem_nil _⟩

theorem listers_subset : listers ⊆ sqlEmitters ++ storageEmitters := by
  simp [listers, sqlEmitters, storageEmitters]

/-- **Columns and host variables correspond.** In a run whose provider may be another one at every
step, there is one answer for all emitters that are called while the table `b` is bound, in
whatever template and with whatever parameters. Without fields, each of them gives its
placeholder, and the count is 0. Otherwise they all render these fields, one entry or line for
each. A run with one provider is a special case (`goes_iff_stageAt`). -/
theorem run_corresponds (e : Engine) (q : Request) (source : Source) (now : Moment) (sink : Sink)
    (answers : Nat → Provider) (b : Binding) :
    ∃ answer : Option (List Field),
      (∀ m ∈ listers, Backend.cobol.registry.find? m.name = some m.trigger ∧
        ∀ i g, stageAt e answers (e.start q source now sink) i = some g →
          g.run.context.table = some b →
          ∀ column t rest, g.plan = Rules.tokenPlan column t m.trigger >>= rest →
            ∃ s, stageAt e answers (e.start q source now sink) (i + 4) = some ⟨s, rest (some
              (m.value (showing column t m.maxParams g.run).context (t.paramsUpTo m.maxParams)
                answer)), g.waiting⟩) ∧
      ∀ c ps,
        match answer with
        | none => (∀ m ∈ listers, m.value c ps answer = m.placeholder c ps) ∧
            fieldCount.value c ps answer = "0"
        | some fs => fs ≠ [] ∧ Corresponding c ps fs ∧
            ((∀ f ∈ fs, f.Unbroken) → (∀ p ∈ ps, Unbroken p) → LineByLine c ps fs) := by
  obtain ⟨answer, hne, hcalls⟩ := one_answer e answers (e.start q source now sink) b .all
  refine ⟨answer, fun m hm => ⟨find?_emitter (listers_subset hm),
    fun i g hstage hbound column t rest hcall => hcalls m (selection_listers m hm) b (.refl b)
      i g column t rest ⟨hstage, hbound, hcall⟩⟩, fun c ps => ?_⟩
  cases answer with
  | none => exact ⟨fun m _ => rfl, rfl⟩
  | some fs => exact ⟨hne fs rfl, corresponding c ps fs, lineByLine (hne fs rfl)⟩

/-- A provider that knows two columns when it is asked first, and then no table any more. -/
def forgetful (i : Nat) : Provider :=
  if i < 5 then Schema.provider ⟨[⟨"RATE", 1, [{ column := "ID" }, { column := "AMT" }]⟩]⟩
  else .absent

/-- A COBOL engine without a provider of its own. -/
def unsupplied : Engine where
  registry := Backend.cobol.registry
  schema := .absent
  store t := .error (.templateNotFound t .notFound)
  limits := {}

/-- A request for a table, without fields of its own. -/
def unsuppliedRequest : Request where
  template := "t"
  output := "o"
  insuranceLine := ""
  processType := ""
  table := some "RATE"

/-- A template that lists columns and counts them. -/
def listAndCount : Source := .ofBytes (Text.encode "&SELCOLS|\n&FLDCNT|\n")

/-- Its run comes to the token of the column list at its second step and goes on with the value
that is rendered from the answer. The columns that are listed first are counted later on, although
the provider has none any more. -/
theorem listAndCount_corresponds :
    let first := unsupplied.start unsuppliedRequest listAndCount ⟨0⟩ {}
    let t : Token := ⟨'&', "SELCOLS".toList, .pipe []⟩
    ∃ answer r rest s,
      stageAt unsupplied forgetful first 2 =
        some ⟨r, Rules.tokenPlan 0 t selectColumns.trigger >>= rest, []⟩ ∧
      stageAt unsupplied forgetful first 6 = some ⟨s, rest (some
        (selectColumns.value (showing 0 t (some 0) r).context [] answer)), []⟩ ∧
      (∀ c ps,
        match answer with
        | none => fieldCount.value c ps answer = "0"
        | some fs => fs ≠ [] ∧ Corresponding c ps fs) ∧
      (stageAt unsupplied forgetful first 16).map (·.run.sink.lines) =
        some #["ID,", "AMT", "2"] := by
  intro first t
  obtain ⟨answer, hcalls, hreads⟩ := run_corresponds unsupplied unsuppliedRequest listAndCount ⟨0⟩
    {} forgetful { table := "RATE", index := 0 }
  have hlines : listAndCount.lines = ⟨1, "&SELCOLS|"⟩ :: [⟨2, "&FLDCNT|"⟩] := by decide +kernel
  have hpieces : pieces "&SELCOLS|".toList = .token t :: [] := by decide +kernel
  have hfound : unsupplied.registry.find? t.name = some selectColumns.trigger := by
    have hname : t.name = selectColumns.name := by decide +kernel
    have hmem : selectColumns ∈ sqlEmitters ++ storageEmitters := by simp [sqlEmitters]
    have hfind := find?_emitter hmem
    rw [hname]
    exact hfind
  obtain ⟨rest, hfirst⟩ := stageAt_token unsupplied forgetful unsuppliedRequest ⟨0⟩ {} hlines
    (by decide +kernel) hpieces hfound
  have hbound : (counted (beginLine 1 (unsupplied.begin unsuppliedRequest ⟨0⟩ {}))).context.table =
      some { table := "RATE", index := 0 } := by decide +kernel
  obtain ⟨s, hsixth⟩ := (hcalls selectColumns List.mem_cons_self).2 2 _ hfirst hbound 0 t rest rfl
  refine ⟨answer, _, rest, s, hfirst, hsixth, fun c ps => ?_, by decide +kernel⟩
  have hread := hreads c ps
  cases answer with
  | none => exact hread.2
  | some fs => exact ⟨hread.1, hread.2.1⟩

end Stencil.Cobol
