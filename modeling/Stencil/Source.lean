import Stencil.Error
import Stencil.Text.Utf8

/-!
# Template sources

A template is read line by line. `breakLines` cuts at line feeds: a carriage return directly
before the line feed belongs to the terminator, one at the end of an unterminated last line
does not, and a text that ends in a line feed has no empty last line.
-/

namespace Stencil

/-- The list without `x` at its end. -/
def dropLastIf {α : Type} [DecidableEq α] (x : α) (l : List α) : List α :=
  if l.getLast? = some x then l.dropLast else l

/-- The lines of a list of characters or bytes, given line feed and carriage return. -/
def breakLines {α : Type} [DecidableEq α] (lf cr : α) (cs : List α) : List (List α) :=
  let parts := cs.splitOn lf
  parts.dropLast.map (dropLastIf cr) ++
    (match parts.getLast? with
      | none => []
      | some [] => []
      | some last => [last])

/-- A line of a template. -/
structure Line where
  /-- Counted from 1. -/
  number : Nat
  text : String
deriving DecidableEq, Repr

/-- Texts as lines numbered from `n`. -/
def Line.numbered (n : Nat) : List String → List Line
  | [] => []
  | t :: ts => ⟨n, t⟩ :: numbered (n + 1) ts

/-- The lines that a template delivers, and the failure that ends the reading, if one does. -/
structure Source where
  lines : List Line
  failure : Option IoError
deriving DecidableEq, Repr

namespace Source

/-- The lines of a text. -/
def ofText (s : String) : Source :=
  ⟨Line.numbered 1 ((breakLines '\n' '\r' s.toList).map String.ofList), none⟩

/-- The lines of a file; invalid parts are shown as U+FFFD. -/
def ofBytes (bs : Text.Bytes) : Source :=
  ⟨Line.numbered 1 ((breakLines 10 13 bs).map Text.decodeLossy), none⟩

end Source

/-- Where templates are found by name. -/
abbrev TemplateStore := String → Except Error Source

end Stencil
