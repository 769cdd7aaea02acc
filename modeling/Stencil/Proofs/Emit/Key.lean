import Mathlib.Data.List.Nodup
import Stencil.Backend
import Stencil.Proofs.Emit.Emitter
import Stencil.Proofs.Schema.Memo

/-!
# What statements take for the key

COBOL has two sources for the key of a table. `KEYWHERE`, `KEYCOLS` and `ORDERBY` render the key
fields that are looked up as such; `UPDATE`, `DECLCUR` and `UPDSET` look up all fields and go by
their marks. `KeyedStatements` says what each of them renders, and `agreeOn_iff` when they agree. They
do for a schema that is given as data, where the key fields are the marked ones
(`tableFields_marked`), if no two columns have one name (`agreeOn_marked`). A provider that keeps its
key fields apart and marks no field gets an `UPDATE` without a `WHERE`, which assigns the key.
-/

namespace Stencil.Cobol

open Engine

/-- The columns of some fields, in order. -/
def columnsOf (fs : List Field) : List String := fs.map (·.column)

/-- The fields that are marked as keys. -/
def marked (fs : List Field) : List Field := fs.filter (·.isKey)

/-- The fields that are not. -/
def unmarked (fs : List Field) : List Field := fs.filter (!·.isKey)

/-- Statements that compare some fields and assign others agree on the key, when they compare the
columns of the key fields and assign none of them. -/
structure AgreeOn (keys compared assigned : List Field) : Prop where
  compared : columnsOf compared = columnsOf keys
  assigned : ∀ f ∈ assigned, f.column ∉ columnsOf keys

/-! ## When marks and key fields agree -/

theorem mem_columnsOf_marked {fs : List Field} {column : String} :
    column ∈ columnsOf (marked fs) ↔ ∃ f ∈ fs, f.isKey = true ∧ f.column = column := by
  simp only [columnsOf, marked, List.mem_map, List.mem_filter, and_assoc]

/-- Marks and key fields agree when just the columns of the key fields are marked, and stand in the
order of the key fields. -/
theorem agreeOn_iff {fs ks : List Field} : AgreeOn ks (marked fs) (unmarked fs) ↔
    (∀ f ∈ fs, f.isKey = true ↔ f.column ∈ columnsOf ks) ∧
      columnsOf (fs.filter fun f => f.column ∈ columnsOf ks) = columnsOf ks := by
  have hfilter (hmarks : ∀ f ∈ fs, f.isKey = true ↔ f.column ∈ columnsOf ks) :
      (fs.filter fun f => f.column ∈ columnsOf ks) = marked fs := by
    refine List.filter_congr fun f hf => ?_
    rw [Bool.eq_iff_iff, decide_eq_true_iff, hmarks f hf]
  constructor
  · rintro ⟨hcompared, hassigned⟩
    have hmarks : ∀ f ∈ fs, f.isKey = true ↔ f.column ∈ columnsOf ks := by
      intro f hf
      constructor
      · intro hkey
        rw [← hcompared]
        exact mem_columnsOf_marked.2 ⟨f, hf, hkey, rfl⟩
      · intro hcolumn
        cases hkey : f.isKey with
        | true => rfl
        | false =>
          have hun : f ∈ unmarked fs := List.mem_filter.2 ⟨hf, by rw [hkey]; rfl⟩
          exact absurd hcolumn (hassigned f hun)
    exact ⟨hmarks, by rw [hfilter hmarks, hcompared]⟩
  · rintro ⟨hmarks, horder⟩
    refine ⟨by rw [← hfilter hmarks, horder], fun f hf hcolumn => ?_⟩
    obtain ⟨hf, hnot⟩ := List.mem_filter.1 hf
    rw [(hmarks f hf).2 hcolumn] at hnot
    cases hnot

/-- Where no two columns have one name, the marked fields are agreed on. -/
theorem agreeOn_marked {fs : List Field} (hdistinct : (columnsOf fs).Nodup) :
    AgreeOn (marked fs) (marked fs) (unmarked fs) := by
  refine ⟨rfl, fun f hf hcolumn => ?_⟩
  obtain ⟨hf, hnot⟩ := List.mem_filter.1 hf
  obtain ⟨g, hg, hkey, hsame⟩ := mem_columnsOf_marked.1 hcolumn
  obtain rfl : g = f := List.inj_on_of_nodup_map hdistinct hg hf hsame
  rw [hkey] at hnot
  cases hnot

/-! ## What the emitters render -/

section

variable {fs ks : List Field}

theorem keep_all (h : fs ≠ []) : Selection.all.keep fs = some fs :=
  if_neg (by simpa using h)

theorem keep_keys (h : ks ≠ []) : Selection.keys.keep ks = some ks :=
  if_neg (by simpa using h)

theorem keep_nonKeys (fs : List Field) :
    Selection.nonKeys.keep fs = if (unmarked fs).isEmpty then none else some (unmarked fs) := rfl

/-- The fragments of an ORDER BY clause, joined. -/
theorem orderBy_text (c : Context) (ps : List String) (h : ks ≠ []) :
    orderBy.text c ps ks = "ORDER BY " ++ ", ".intercalate (columnsOf ks) := by
  obtain ⟨k, ks, rfl⟩ := List.exists_cons_of_ne_nil h
  show ", ".intercalate ((k :: ks).mapIdx fun i f => lead "ORDER BY " i f.column) = _
  have hrest : (ks.mapIdx fun i f => lead "ORDER BY " (i + 1) f.column) = columnsOf ks :=
    List.mapIdx_eq_iff.2 fun i => by simp [columnsOf, lead]
  rw [List.mapIdx_cons, hrest]
  exact String.intercalate_cons_append

end

/-- What the emitters render that have to do with the key, from all fields `fs` and the key fields
`ks` of the bound table. -/
structure KeyedStatements (e : Engine) (sub : Sub) (r : Run) (ps : List String)
    (fs ks : List Field) : Prop where
  keyWhere : Renders e sub r keyWhere ps (whereClause r.context.column (param ps 0) ks)
  keyColumns : Renders e sub r keyColumns ps (columnList r.context.column ks)
  orderBy : Renders e sub r orderBy ps ("ORDER BY " ++ ", ".intercalate (columnsOf ks))
  updateStatement : Renders e sub r updateStatement ps
    ("UPDATE " ++ tableOr r.context ++
      setPart r.context.column (param ps 0) (unmarked fs) ++
      wherePart r.context.column (param ps 0) (marked fs))
  declareCursor : Renders e sub r declareCursor ps
    ("DECLARE " ++ cursorName ps ++ " CURSOR FOR" ++
      "\n" ++ Text.spaces r.context.column ++ "    SELECT " ++
        columnList (r.context.column + 11) fs ++
      "\n" ++ Text.spaces r.context.column ++ "      FROM " ++ tableOr r.context ++
      cursorKeys r.context.column (param ps 1) (marked fs))
  updateSet : Renders e sub r updateSet ps
    (if (unmarked fs).isEmpty then updateSet.placeholder r.context ps
      else updateSet.text r.context ps (unmarked fs))

section

variable {e : Engine} {sub : Sub} {r : Run} {fs ks : List Field}

theorem keyedStatements (hfields : (e.tableFields false r).1 = .ok (some fs))
    (hkeys : (e.tableFields true r).1 = .ok (some ks)) (hfs : fs ≠ []) (hks : ks ≠ [])
    (ps : List String) : KeyedStatements e sub r ps fs ks := by
  have hall {m : Emitter} (hm : m.selection = .all) :
      Renders e sub r m ps (m.text r.context ps fs) := by
    have h : Renders e sub r m ps (m.value r.context ps ((some fs).bind m.selection.keep)) :=
      renders_value (by rw [hm]; exact hfields) ps
    rwa [hm, Option.bind_some, keep_all hfs] at h
  have hkey {m : Emitter} (hm : m.selection = .keys) :
      Renders e sub r m ps (m.text r.context ps ks) := by
    have h : Renders e sub r m ps (m.value r.context ps ((some ks).bind m.selection.keep)) :=
      renders_value (by rw [hm]; exact hkeys) ps
    rwa [hm, Option.bind_some, keep_keys hks] at h
  refine ⟨hkey rfl, hkey rfl, ?_, hall rfl, hall rfl, ?_⟩
  · rw [← orderBy_text r.context ps hks]
    exact hkey rfl
  · have h : Renders e sub r updateSet ps
        (updateSet.value r.context ps ((some fs).bind updateSet.selection.keep)) :=
      renders_value hfields ps
    rw [show updateSet.selection = .nonKeys from rfl, Option.bind_some, keep_nonKeys] at h
    split at h
    · next hempty => rwa [if_pos hempty]
    · next hempty => rwa [if_neg hempty]

/-- A schema that is given as data, and a caller that gives the fields, have the marked fields as
key fields. -/
theorem tableFields_marked {s : Schema} (hschema : e.schema = s.provider)
    (hmemo : r.memo.Faithful e.schema) (hfields : (e.tableFields false r).1 = .ok (some fs)) :
    (e.tableFields true r).1 = .ok (some (marked fs)) := by
  have hp : e.schema.CaseBlind := hschema ▸ s.provider_caseBlind
  rw [tableFields_result] at hfields ⊢
  cases htable : r.context.table with
  | none =>
    rw [htable] at hfields
    cases hfields
  | some b =>
    rw [htable] at hfields
    obtain ⟨table, index, fields⟩ := b
    cases fields with
    | some given =>
      cases hfields
      rfl
    | none =>
      simp only [Option.bind_some, Except.ok.injEq] at hfields ⊢
      rw [(hmemo.lookup hp table false).1] at hfields
      rw [(hmemo.lookup hp table true).1]
      rw [hschema] at hfields ⊢
      show ((s.fields table).map _).toOption = _
      have hanswer : s.fields table = .ok fs := Effect.eq_ok_of_toOption hfields
      rw [hanswer]
      rfl

/-- **The two sources of the key.** Where all fields and the key fields of the bound table are found,
`KEYWHERE`, `KEYCOLS` and `ORDERBY` are on the key fields, `UPDATE` and `DECLCUR` compare and order by
the marked ones of all fields, and `UPDATE` and `UPDSET` assign the others. They agree just if the
fields with the columns of the key fields are marked and no others, and have their order; so they do
for a schema that is given as data and in which no two columns of the table have one name. -/
theorem keyed_statements_agree_iff (hfields : (e.tableFields false r).1 = .ok (some fs))
    (hkeys : (e.tableFields true r).1 = .ok (some ks)) (hfs : fs ≠ []) (hks : ks ≠ [])
    (ps : List String) :
    KeyedStatements e sub r ps fs ks ∧
    (AgreeOn ks (marked fs) (unmarked fs) ↔
      (∀ f ∈ fs, f.isKey = true ↔ f.column ∈ columnsOf ks) ∧
        columnsOf (fs.filter fun f => f.column ∈ columnsOf ks) = columnsOf ks) ∧
    ∀ s : Schema, e.schema = s.provider → r.memo.Faithful e.schema → (columnsOf fs).Nodup →
      AgreeOn ks (marked fs) (unmarked fs) := by
  refine ⟨keyedStatements hfields hkeys hfs hks ps, agreeOn_iff, ?_⟩
  intro s hschema hmemo hdistinct
  have hmarked := tableFields_marked hschema hmemo hfields
  rw [hkeys] at hmarked
  cases hmarked
  exact agreeOn_marked hdistinct

end

/-! ## A provider that keeps its key fields apart -/

/-- The columns of a table, of which none is marked. -/
def rateFields : List Field :=
  [{ column := "ID", type := .integer },
   { column := "AMT", type := .decimal, length := 9, decimals := 2 }]

/-- Its key. -/
def rateKeys : List Field := [{ column := "ID", type := .integer, isKey := true }]

/-- A COBOL engine whose provider keeps the key apart from the columns. -/
def separateKeys : Engine where
  registry := Backend.cobol.registry
  schema :=
    { fields := fun _ => .ok rateFields, keyFields := fun _ => .ok rateKeys,
      tables := .ok [("RATE", 1)] }
  store t := .error (.templateNotFound t .notFound)
  limits := {}

/-- A request that binds the table. -/
def rateRequest : Request where
  template := "t"
  output := "o"
  insuranceLine := ""
  processType := ""
  table := some "RATE"

/-- Its statements are rendered from two different keys. -/
theorem separateKeys_statements :
    KeyedStatements separateKeys (call separateKeys 0) (separateKeys.begin rateRequest ⟨0⟩ {}) []
      rateFields rateKeys ∧
    (AgreeOn rateKeys (marked rateFields) (unmarked rateFields) ↔
      (∀ f ∈ rateFields, f.isKey = true ↔ f.column ∈ columnsOf rateKeys) ∧
        columnsOf (rateFields.filter fun f => f.column ∈ columnsOf rateKeys) =
          columnsOf rateKeys) := by
  obtain ⟨hstatements, hagree, -⟩ :=
    keyed_statements_agree_iff (e := separateKeys) (r := separateKeys.begin rateRequest ⟨0⟩ {})
      rfl rfl (by decide) (by decide) []
  exact ⟨hstatements, hagree⟩

/-- The `UPDATE` has no `WHERE`, and assigns the column that `KEYWHERE` compares. -/
theorem separateKeys_disagree :
    let r := separateKeys.begin rateRequest ⟨0⟩ {}
    (separateKeys.tableFields false r).1 = .ok (some rateFields) ∧
    (separateKeys.tableFields true r).1 = .ok (some rateKeys) ∧
    ¬AgreeOn rateKeys (marked rateFields) (unmarked rateFields) ∧
    separateKeys.preview rateRequest "&UPDATE|\n&KEYWHERE|\n" ⟨0⟩ =
      .ok ["UPDATE RATE", "   SET ID = :ID,", "       AMT = :AMT", "WHERE ID = :ID"] := by
  refine ⟨rfl, rfl, fun hagree => ?_, Effect.eq_ok_of_toOption (by decide +kernel)⟩
  have hcompared : columnsOf (marked rateFields) = columnsOf rateKeys := hagree.compared
  exact absurd hcompared (by decide)

end Stencil.Cobol
