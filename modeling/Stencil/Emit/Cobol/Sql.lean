import Stencil.Emit.Cobol.Comment

/-!
# Embedded SQL

Column lists have one column per line. Each further key of a WHERE clause has its own `AND`
line. A host variable is `:NAME`, or `:QUALIFIER.NAME` when a qualifier is given.
-/

namespace Stencil.Cobol

/-- What stands for the table when none is bound. -/
def hostTable : String := "HOST-TABLE"

/-- What stands for the host variables when there are none. -/
def hostRecord : String := ":HOST-RECORD"

/-- The host variable of a field. -/
def hostVar (qualifier : Option String) (f : Field) : String :=
  match qualifier with
  | some q => ":" ++ q ++ "." ++ f.cobolName
  | none => ":" ++ f.cobolName

/-- A column beside its host variable. -/
def equalsHost (qualifier : Option String) (f : Field) : String :=
  f.column ++ " = " ++ hostVar qualifier f

/-- `word` before the first fragment only. -/
def lead (word : String) (position : Nat) (text : String) : String :=
  if position = 0 then word ++ text else text

/-- The bound table's name, or what stands for it. -/
def tableOr (c : Context) : String := c.tableName.getD hostTable

/-- The columns below one another. -/
def columnList (indent : Nat) (fs : List Field) : String :=
  (Join.continued ",").render indent (fun _ f => f.column) fs

/-- The host variables below one another. -/
def hostVarList (indent : Nat) (qualifier : Option String) (fs : List Field) : String :=
  (Join.continued ",").render indent (fun _ f => hostVar qualifier f) fs

/-- The WHERE clause on some key fields. -/
def whereClause (indent : Nat) (qualifier : Option String) (keys : List Field) : String :=
  (Join.continued "").render indent
    (fun i f => (if i = 0 then "WHERE " else "  AND ") ++ equalsHost qualifier f) keys

/-- A list of all columns or of the key columns. -/
def columnEmitter (name summary : String) (selection : Selection) : Emitter where
  name
  summary
  maxParams := some 0
  selection
  placeholder _ _ := "*"
  text c _ fs := columnList c.column fs

/-- A list of host variables. -/
def hostVarEmitter (name summary : String) : Emitter where
  name
  summary
  maxParams := some 1
  placeholder _ _ := hostRecord
  text c ps fs := hostVarList c.column (param ps 0) fs

/-- The columns of a SELECT. -/
def selectColumns : Emitter := columnEmitter "SELCOLS" "SELECT column list" .all

/-- The key columns. -/
def keyColumns : Emitter := columnEmitter "KEYCOLS" "Key column list" .keys

/-- The columns of an INSERT. -/
def insertColumns : Emitter := columnEmitter "INSCOLS" "INSERT column list" .all

/-- The host variables of an INTO. -/
def intoVars : Emitter := hostVarEmitter "INTOVARS" "INTO host variables: |qualifier|"

/-- The host variables of an INSERT. -/
def insertValues : Emitter :=
  hostVarEmitter "INSVALS" "INSERT VALUES host variables: |qualifier|"

/-- The WHERE clause on the key columns. -/
def keyWhere : Emitter where
  name := "KEYWHERE"
  summary := "WHERE clause on the key columns: |qualifier|"
  maxParams := some 1
  selection := .keys
  placeholder _ _ := "WHERE 1 = 1"
  text c ps fs := whereClause c.column (param ps 0) fs

/-- The ORDER BY clause on the key columns. -/
def orderBy : Emitter where
  name := "ORDERBY"
  summary := "ORDER BY the key columns"
  maxParams := some 0
  selection := .keys
  placeholder _ _ := "ORDER BY 1"
  text c _ fs := (Join.inline ", ").render c.column (fun i f => lead "ORDER BY " i f.column) fs

/-- The SET list of the columns that are no keys. -/
def updateSet : Emitter where
  name := "UPDSET"
  summary := "UPDATE SET list of non-key columns: |qualifier|"
  maxParams := some 1
  selection := .nonKeys
  placeholder _ _ := "SET " ++ hostTable ++ " = " ++ hostRecord
  text c ps fs :=
    (Join.continued ",").render (c.column + 4)
      (fun i f => lead "SET " i (equalsHost (param ps 0) f)) fs

/-- The cursor named by the first parameter. -/
def cursorName (ps : List String) : String := (param ps 0).getD "C1"

/-- The FETCH statement. -/
def fetch : Emitter where
  name := "FETCH"
  summary := "FETCH statement: |cursor|qualifier|"
  maxParams := some 2
  placeholder _ ps := "FETCH " ++ cursorName ps ++ " INTO " ++ hostRecord
  text c ps fs :=
    "FETCH " ++ cursorName ps ++ "\n" ++ Text.spaces c.column ++ "  INTO " ++
      hostVarList (c.column + 7) (param ps 1) fs

/-- The INSERT statement. -/
def insertStatement : Emitter where
  name := "INSERT"
  summary := "INSERT statement: |qualifier|"
  maxParams := some 1
  placeholder c _ := "INSERT INTO " ++ tableOr c ++ " VALUES (" ++ hostRecord ++ ")"
  text c ps fs :=
    "INSERT INTO " ++ tableOr c ++
      "\n" ++ Text.spaces c.column ++ "       (" ++ columnList (c.column + 8) fs ++ ")" ++
      "\n" ++ Text.spaces c.column ++ "VALUES (" ++
        hostVarList (c.column + 8) (param ps 0) fs ++ ")"

/-- The SET part of an UPDATE statement, absent without columns. -/
def setPart (indent : Nat) (qualifier : Option String) (values : List Field) : String :=
  if values.isEmpty then ""
  else
    "\n" ++ Text.spaces indent ++ "   SET " ++
      (Join.continued ",").render (indent + 7) (fun _ f => equalsHost qualifier f) values

/-- The WHERE part of an UPDATE statement, absent without keys. -/
def wherePart (indent : Nat) (qualifier : Option String) (keys : List Field) : String :=
  if keys.isEmpty then ""
  else "\n" ++ Text.spaces indent ++ " " ++ whereClause (indent + 1) qualifier keys

/-- The UPDATE statement by key. -/
def updateStatement : Emitter where
  name := "UPDATE"
  summary := "UPDATE statement by key: |qualifier|"
  maxParams := some 1
  placeholder c _ := "UPDATE " ++ tableOr c ++ " SET " ++ hostTable ++ " = " ++ hostRecord
  text c ps fs :=
    "UPDATE " ++ tableOr c ++
      setPart c.column (param ps 0) (fs.filter (!·.isKey)) ++
      wherePart c.column (param ps 0) (fs.filter (·.isKey))

/-- The WHERE and ORDER BY parts of a cursor, absent without keys. -/
def cursorKeys (indent : Nat) (qualifier : Option String) (keys : List Field) : String :=
  if keys.isEmpty then ""
  else
    "\n" ++ Text.spaces indent ++ "     " ++ whereClause (indent + 5) qualifier keys ++
    "\n" ++ Text.spaces indent ++ "     ORDER BY " ++ ", ".intercalate (keys.map (·.column))

/-- The cursor declaration. -/
def declareCursor : Emitter where
  name := "DECLCUR"
  summary := "DECLARE CURSOR over the table: |cursor|qualifier|"
  maxParams := some 2
  placeholder c ps := "DECLARE " ++ cursorName ps ++ " CURSOR FOR SELECT * FROM " ++ tableOr c
  text c ps fs :=
    "DECLARE " ++ cursorName ps ++ " CURSOR FOR" ++
      "\n" ++ Text.spaces c.column ++ "    SELECT " ++ columnList (c.column + 11) fs ++
      "\n" ++ Text.spaces c.column ++ "      FROM " ++ tableOr c ++
      cursorKeys c.column (param ps 1) (fs.filter (·.isKey))

/-- The largest number of bytes among some names. -/
def widest (names : List String) : Nat :=
  (names.map String.utf8ByteSize).foldl max 0

/-- The line of a column in a table declaration of `count` columns. -/
def columnLine (width count position : Nat) (f : Field) : String :=
  (if position = 0 then "( " else "  ") ++ Text.padTo width f.column ++ " " ++ f.sqlType ++
    (if f.isKey then " NOT NULL" else "") ++ (if position + 1 = count then "" else ",")

/-- The lines of a table declaration. -/
def tableLines (table : String) (fs : List Field) : List String :=
  ("EXEC SQL DECLARE " ++ table ++ " TABLE") ::
    fs.mapIdx (columnLine (widest (fs.map (·.column))) fs.length) ++ [") END-EXEC."]

/-- The table declaration in place of the line. -/
def declareTable : Emitter where
  name := "DCLTAB"
  summary := "EXEC SQL DECLARE TABLE block"
  replacesLine := true
  maxParams := some 0
  placeholder c _ := commentLine ("NO FIELDS FOR DCLTAB " ++ tableOr c)
  text c _ fs := indented c.column (tableLines (tableOr c) fs)

/-- The emitters of embedded SQL. -/
def sqlEmitters : List Emitter :=
  [selectColumns, keyColumns, intoVars, insertColumns, insertValues, keyWhere, orderBy,
   updateSet, fetch, insertStatement, updateStatement, declareCursor, declareTable]

end Stencil.Cobol
