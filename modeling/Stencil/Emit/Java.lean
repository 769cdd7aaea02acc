import Stencil.Emit.Fields

/-!
# Java

Fields become members in camel case, and table access goes through the placeholders of a
prepared statement.
-/

namespace Stencil.Java

/-- What stands for the fields when there are none. -/
def noTable : String := "// no table bound"

/-- The member of a field. -/
def member (f : Field) : String := Naming.camelCase f.column

/-- The property of a field, as it follows `get` and `set`. -/
def property (f : Field) : String := Naming.pascalCase f.column

/-- A comment in place of the line, at the column of the token. -/
def comment : Trigger where
  name := "CMNT"
  summary := "Comment line: |text|"
  replacesLine := true
  resolve ps := do
    let c ← Action.getContext
    let text := Text.trimEnd (" ".intercalate ps)
    pure (some (Text.spaces c.column ++ if text = "" then "//" else "// " ++ text))

/-- The class name. -/
def className : Trigger where
  name := "CLASS"
  summary := "Class name derived from the program name"
  maxParams := some 0
  resolve _ := do
    let c ← Action.getContext
    pure (some (Naming.pascalCase c.business.programName))

/-- One line per field, below one another. -/
def lines (indent : Nat) (text : Nat → Field → String) (fs : List Field) : String :=
  (Join.continued "").render indent text fs

/-- The member declarations. -/
def members : Emitter where
  name := "FIELDS"
  summary := "Member declarations"
  maxParams := some 0
  placeholder _ _ := noTable
  text c _ fs := lines c.column (fun _ f => "private " ++ f.javaType ++ " " ++ member f ++ ";") fs

/-- The getter and the setter of a field. -/
def accessorLines (f : Field) : List String :=
  ["public " ++ f.javaType ++ " get" ++ property f ++ "() \x7b",
   "    return " ++ member f ++ ";",
   "\x7d",
   "",
   "public void set" ++ property f ++ "(" ++ f.javaType ++ " " ++ member f ++ ") \x7b",
   "    this." ++ member f ++ " = " ++ member f ++ ";",
   "\x7d"]

/-- Lines indented, empty ones left empty. -/
def indentedBlock (indent : Nat) (ls : List String) : String :=
  "\n".intercalate (ls.map fun l => if l = "" then "" else Text.spaces indent ++ l)

/-- The getters and setters in place of the line, with an empty line between fields. -/
def accessors : Emitter where
  name := "ACCESSORS"
  summary := "Getter and setter per field"
  replacesLine := true
  maxParams := some 0
  placeholder c _ := Text.spaces c.column ++ noTable
  text c _ fs := "\n\n".intercalate (fs.map fun f => indentedBlock c.column (accessorLines f))

/-- The columns on one line. -/
def columns : Emitter where
  name := "COLS"
  summary := "Comma-separated column list"
  maxParams := some 0
  placeholder _ _ := "*"
  text c _ fs := (Join.inline ", ").render c.column (fun _ f => f.column) fs

/-- The WHERE clause on the key columns. -/
def keyWhere : Emitter where
  name := "KEYWHERE"
  summary := "WHERE clause with ? placeholders"
  maxParams := some 0
  selection := .keys
  placeholder _ _ := "WHERE 1 = 1"
  text c _ fs :=
    (Join.inline " AND ").render c.column
      (fun i f => (if i = 0 then "WHERE " else "") ++ f.column ++ " = ?") fs

/-- Binds the key values to the placeholders. -/
def bindKeys : Emitter where
  name := "BINDKEYS"
  summary := "Bind key values: |statement|source|"
  maxParams := some 2
  selection := .keys
  placeholder _ _ := "// no key fields"
  text c ps fs :=
    lines c.column
      (fun i f =>
        (param ps 0).getD "stmt" ++ ".set" ++ f.jdbcAccessor ++ "(" ++ toString (i + 1) ++ ", " ++
          (param ps 1).getD "key" ++ ".get" ++ property f ++ "());") fs

/-- Reads a column from a result set; a type without an accessor of its own is asked for by
class. -/
def readColumn (resultSet : String) (f : Field) : String :=
  if f.jdbcAccessor = "Object" then
    resultSet ++ ".getObject(\"" ++ f.column ++ "\", " ++ f.javaType ++ ".class)"
  else resultSet ++ ".get" ++ f.jdbcAccessor ++ "(\"" ++ f.column ++ "\")"

/-- Copies a row of a result set. -/
def readRow : Emitter where
  name := "READROW"
  summary := "Copy a result row: |resultset|target|"
  maxParams := some 2
  placeholder _ _ := noTable
  text c ps fs :=
    lines c.column
      (fun _ f =>
        (param ps 1).getD "row" ++ ".set" ++ property f ++ "(" ++
          readColumn ((param ps 0).getD "rs") f ++ ");") fs

/-- The emitters. -/
def emitters : List Emitter :=
  [members, accessors, columns, keyWhere, bindKeys, readRow]

/-- The triggers that only Java has, and those it renders in its own way. -/
def triggers : List Trigger :=
  [comment, className] ++ emitters.map Emitter.trigger

end Stencil.Java
