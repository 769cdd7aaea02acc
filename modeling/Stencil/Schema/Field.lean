import Stencil.Naming

/-!
# Fields

A field is a column of a table with the shape of its host variable. From its type follow the
COBOL picture, the SQL column type, the Java type and the JDBC accessor.
-/

namespace Stencil

/-- The column types. -/
inductive DataType where
  | smallInt
  | integer
  | bigInt
  | decimal
  | float
  | char
  | varChar
  | date
  | time
  | timestamp
deriving DecidableEq, Repr

namespace DataType

/-- The name under which a type is written. -/
def name : DataType → String
  | smallInt => "smallint"
  | integer => "integer"
  | bigInt => "bigint"
  | decimal => "decimal"
  | float => "float"
  | char => "char"
  | varChar => "varchar"
  | date => "date"
  | time => "time"
  | timestamp => "timestamp"

/-- The names under which types are read, the written one of each type first. -/
def names : List (String × DataType) :=
  [("smallint", smallInt), ("short", smallInt), ("integer", integer), ("int", integer),
   ("bigint", bigInt), ("long", bigInt), ("decimal", decimal), ("numeric", decimal),
   ("packed", decimal), ("float", float), ("double", float), ("real", float), ("char", char),
   ("varchar", varChar), ("date", date), ("time", time), ("timestamp", timestamp)]

/-- The type of a name. -/
def ofName? (s : String) : Option DataType :=
  (names.find? fun e => e.1 == s).map (·.2)

/-- Numeric columns start as zero, all others as spaces. -/
def isNumeric : DataType → Bool
  | smallInt | integer | bigInt | decimal | float => true
  | _ => false

theorem ofName?_name (t : DataType) : ofName? t.name = some t := by
  cases t <;> decide

end DataType

/-- A column of a table. -/
structure Field where
  column : String
  /-- The COBOL name given by the metadata, if any. -/
  declaredName : Option String := none
  type : DataType := .char
  length : Nat := 0
  decimals : Nat := 0
  isKey : Bool := false
deriving DecidableEq, Repr

namespace Field

/-- The declared COBOL name unless it is blank, else the one derived from the column. -/
def cobolName (f : Field) : String :=
  match f.declaredName with
  | some n => if Text.trim n = "" then Naming.cobolName f.column else Text.trim n
  | none => Naming.cobolName f.column

/-- The figurative constant that initializes the host variable. -/
def initialValue (f : Field) : String :=
  if f.type.isNumeric then "ZERO" else "SPACES"

/-- `n` as a repetition count. -/
def parens (n : Nat) : String := "(" ++ toString n ++ ")"

/-- Digits of a packed number; a length of zero counts as one. -/
def digits (f : Field) : Nat := max f.length 1

/-- Digits behind the decimal point, at most all of them. -/
def scale (f : Field) : Nat := min f.decimals f.digits

/-- The picture of a packed number with the given digits before and behind the point. -/
def packedPicture (whole scale : Nat) : String :=
  if scale = 0 then "PIC S9" ++ parens whole ++ " COMP-3"
  else if whole = 0 then "PIC SV9" ++ parens scale ++ " COMP-3"
  else "PIC S9" ++ parens whole ++ "V9" ++ parens scale ++ " COMP-3"

/-- The PICTURE and USAGE clause of the host variable. -/
def picture (f : Field) : String :=
  match f.type with
  | .smallInt => "PIC S9(4) COMP"
  | .integer => "PIC S9(9) COMP"
  | .bigInt => "PIC S9(18) COMP"
  | .decimal => packedPicture (f.digits - f.scale) f.scale
  | .float => "COMP-2"
  | .char | .varChar => "PIC X" ++ parens f.digits
  | .date => "PIC X(10)"
  | .time => "PIC X(8)"
  | .timestamp => "PIC X(26)"

/-- The column type in a table declaration. -/
def sqlType (f : Field) : String :=
  match f.type with
  | .smallInt => "SMALLINT"
  | .integer => "INTEGER"
  | .bigInt => "BIGINT"
  | .decimal => "DECIMAL(" ++ toString f.digits ++ "," ++ toString f.decimals ++ ")"
  | .float => "DOUBLE"
  | .char => "CHAR" ++ parens f.digits
  | .varChar => "VARCHAR" ++ parens f.digits
  | .date => "DATE"
  | .time => "TIME"
  | .timestamp => "TIMESTAMP"

/-- The Java type of the member. -/
def javaType (f : Field) : String :=
  match f.type with
  | .smallInt => "short"
  | .integer => "int"
  | .bigInt => "long"
  | .decimal => "BigDecimal"
  | .float => "double"
  | .char | .varChar => "String"
  | .date => "LocalDate"
  | .time => "LocalTime"
  | .timestamp => "LocalDateTime"

/-- What follows `get` and `set` in the JDBC accessors. -/
def jdbcAccessor (f : Field) : String :=
  match f.type with
  | .smallInt => "Short"
  | .integer => "Int"
  | .bigInt => "Long"
  | .decimal => "BigDecimal"
  | .float => "Double"
  | .char | .varChar => "String"
  | .date | .time | .timestamp => "Object"

end Field

end Stencil
