import Stencil.Path
import Stencil.Text.Folding
import Stencil.Text.Casing

/-!
# Names in the generated source

Column names arrive as `UPPER_SNAKE`. COBOL wants `UPPER-KEBAB`; Java wants `PascalCase` for
types and properties and `camelCase` for members.
-/

namespace Stencil.Naming

open Text

/-- A column name with `-` for `_`, in upper case. -/
def cobolName (column : String) : String :=
  upper (String.ofList ((trim column).toList.map fun c => if c = '_' then '-' else c))

/-- Whether a character separates the words of a name. -/
def isWordBreak (c : Char) : Bool := c == '_' || c == '-'

/-- A word in lower case with its first character in upper case. -/
def capitalize : List Char → List Char
  | [] => []
  | c :: cs => upperChar c.toLower ++ cs.map Char.toLower

/-- The words of a name run together, each capitalized. -/
def pascalCase (s : String) : String :=
  String.ofList ((s.toList.splitOnP isWordBreak).flatMap capitalize)

/-- The words of a name run together, each but the first capitalized. -/
def camelCase (s : String) : String :=
  match (pascalCase s).toList with
  | [] => ""
  | c :: cs => String.ofList (lowerChar c ++ cs)

/-- Whether a name may stand as a COBOL program name: one to eight ASCII letters and digits, of
which the first is a letter. -/
def isProgramName (s : String) : Bool :=
  match s.toList with
  | [] => false
  | c :: cs => c.isAlpha && cs.all Char.isAlphanum && cs.length ≤ 7

/-- The program name that an output path stands for: its file stem in upper case. -/
def programOfOutput (output : Path) : String :=
  upper (output.fileStem.getD "")

/-- Parts joined by a separator, each further part on a line of its own after `indent` spaces. -/
def joinContinued (parts : List String) (separator : String) (indent : Nat) : String :=
  (separator ++ "\n" ++ spaces indent).intercalate parts

end Stencil.Naming
