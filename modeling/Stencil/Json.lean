import Stencil.Text.Hex

/-!
# JSON values

A `Json` value is written over several lines, with two blanks for every level. An object keeps the
order of its members; an empty list or object stands on one line. `lines` gives the lines.
-/

namespace Stencil

/-- A JSON value without fractions. -/
inductive Json where
  | null
  | bool (value : Bool)
  | number (value : Int)
  | string (value : String)
  | array (items : List Json)
  | object (members : List (String × Json))

namespace Json

/-- How a character is written in a text: quotes, backslashes and control characters are
escaped. -/
def escape (c : Char) : List Char :=
  match c with
  | '"' => ['\\', '"']
  | '\\' => ['\\', '\\']
  | '\x08' => ['\\', 'b']
  | '\x0c' => ['\\', 'f']
  | '\n' => ['\\', 'n']
  | '\r' => ['\\', 'r']
  | '\t' => ['\\', 't']
  | _ =>
    if c.toNat < 0x20 then
      ['\\', 'u', '0', '0', Text.lowerDigit (c.toNat / 16), Text.lowerDigit (c.toNat % 16)]
    else [c]

/-- A text in quotes. -/
def quote (s : String) : String :=
  String.ofList ('"' :: s.toList.flatMap escape ++ ['"'])

/-- Lines with a comma behind the last one. -/
def withComma : List String → List String
  | [] => []
  | [l] => [l ++ ","]
  | l :: ls => l :: withComma ls

/-- Lines with a text in front of the first one. -/
def withFront (front : String) : List String → List String
  | [] => []
  | l :: ls => (front ++ l) :: ls

/-- The lines of values one level deeper, with commas between the values. -/
def commaLines : List (List String) → List String
  | [] => []
  | [v] => v.map ("  " ++ ·)
  | v :: vs => (withComma v).map ("  " ++ ·) ++ commaLines vs

mutual

/-- The lines of a value. -/
def lines : Json → List String
  | null => ["null"]
  | bool b => [if b then "true" else "false"]
  | number n => [toString n]
  | string s => [quote s]
  | array [] => ["[]"]
  | array (j :: js) => "[" :: commaLines (itemLines (j :: js)) ++ ["]"]
  | object [] => ["\x7b\x7d"]
  | object (m :: ms) => "\x7b" :: commaLines (memberLines (m :: ms)) ++ ["\x7d"]

/-- The lines of every item. -/
def itemLines : List Json → List (List String)
  | [] => []
  | j :: js => lines j :: itemLines js

/-- The lines of every member. -/
def memberLines : List (String × Json) → List (List String)
  | [] => []
  | m :: ms => withFront (quote m.1 ++ ": ") (lines m.2) :: memberLines ms

end

/-- A list of texts. -/
def strings (ss : List String) : Json := array (ss.map string)

/-- A natural number. -/
def natural (n : Nat) : Json := number n

/-- A value that may be absent. -/
def optional {α : Type} (f : α → Json) : Option α → Json
  | none => null
  | some a => f a

end Json

end Stencil
