import Stencil.Text.Hex
import Stencil.Text.Utf8
import Stencil.Yaml.Number

/-!
# Writing documents

A `Block` is what a document is written from: texts, integers and records. Records are written one
key a line, two blanks deeper than the record around them. A text is written plain when it stands
for itself there; it is quoted when it would be read as something else, and in double quotes when
it holds characters that have to be escaped. A text of several lines is written line by line.
-/

namespace Stencil.Yaml

/-! ## Forms of texts -/

/-- Whether a text would be read as something else when it is written plain. -/
def isMistakable (s : String) : Bool :=
  s == "" || isNull s || (boolOf? s).isSome ||
    (naturalOf? (capacity 128 - 1) s).isSome || (negativeOf? (capacity 127) s).isSome ||
    hasLeadingZero (dropSign s.toList) || isFractional s

/-- Whether a character ends a line for other readers. -/
def isAnyBreak (c : Char) : Bool := isBreak c || c == '\r' || c == '\u0085'

/-- Whether a character is a blank, a break or the end. -/
def isAnyGap (c : Option Char) : Bool :=
  match c with
  | none => true
  | some c => isGap c || isAnyBreak c || c == endMark

/-- Whether a character is written as it stands. -/
def isShown (c : Char) : Bool :=
  let n := c.toNat
  n == 0x0A || (0x20 ≤ n && n ≤ 0x7E) || (0xA0 ≤ n && n ≤ 0xFFFD && n != 0xFEFF) ||
    0x10000 ≤ n

/-- Whether two neighbours in a text have the given properties. -/
def hasNeighbours (p q : Char → Bool) : List Char → Bool
  | c :: d :: cs => (p c && q d) || hasNeighbours p q (d :: cs)
  | _ => false

/-- Whether a colon stands before a gap. -/
def hasColon : List Char → Bool
  | [] => false
  | c :: cs => (c == ':' && isAnyGap cs.head?) || hasColon cs

/-- Whether a text has a sign that means something else than itself there. -/
def hasIndicator (cs : List Char) : Bool :=
  (match cs with
    | '-' :: '-' :: '-' :: _ => true
    | '.' :: '.' :: '.' :: _ => true
    | c :: rest =>
      "#,[]\x7b\x7d&*!|>'\"%@\x60".toList.contains c ||
        ((c == '?' || c == '-') && isAnyGap rest.head?)
    | [] => false) ||
  hasColon cs || hasNeighbours (fun c => isAnyGap (some c)) (· == '#') cs

/-- Whether a text begins or ends with a blank or a break. -/
def hasLooseEnd (cs : List Char) : Bool :=
  let isLoose (c : Char) : Bool := c == ' ' || isAnyBreak c
  cs.head?.any isLoose || cs.getLast?.any isLoose

/-- Whether a text can only be written with escapes. -/
def needsEscapes (cs : List Char) : Bool :=
  cs.any (!isShown ·) || hasNeighbours (· == ' ') isAnyBreak cs

/-- How a text is written. -/
inductive Form where
  | plain
  | singleQuoted
  | doubleQuoted
  /-- Line by line, behind a bar. -/
  | literal
deriving DecidableEq, Repr

/-- The form in which a text is written. -/
def formOf (s : String) : Form :=
  let cs := s.toList
  if needsEscapes cs then .doubleQuoted
  else if cs.contains '\n' then
    if cs.getLast? = some ' ' then .doubleQuoted else .literal
  else if hasNeighbours isAnyBreak (· == ' ') cs then .doubleQuoted
  else if isMistakable s || cs.any isAnyBreak || hasLooseEnd cs || hasIndicator cs then
    .singleQuoted
  else .plain

/-! ## Texts -/

/-- Blanks up to a column. -/
def blanks (indent : Nat) : List Char := List.replicate indent ' '

/-- Characters with every line but the first set in by some blanks. The flag tells whether a line
begins. -/
def setIn (indent : Nat) : (begins : Bool) → List Char → List Char
  | _, [] => []
  | begins, c :: cs =>
    if isAnyBreak c then c :: setIn indent true cs
    else (if begins then blanks indent else []) ++ c :: setIn indent false cs

/-- A number in `width` hexadecimal digits. -/
def upperHex : (width : Nat) → Nat → List Char
  | 0, _ => []
  | width + 1, n => upperHex width (n / 16) ++ [Text.upperDigit (n % 16)]

/-- The letter that stands for a character behind a backslash. -/
def escapeLetter? (c : Char) : Option Char :=
  match c.toNat with
  | 0x00 => some '0'
  | 0x07 => some 'a'
  | 0x08 => some 'b'
  | 0x09 => some 't'
  | 0x0A => some 'n'
  | 0x0B => some 'v'
  | 0x0C => some 'f'
  | 0x0D => some 'r'
  | 0x1B => some 'e'
  | 0x22 => some '"'
  | 0x5C => some '\\'
  | 0x85 => some 'N'
  | 0xA0 => some '_'
  | 0x2028 => some 'L'
  | 0x2029 => some 'P'
  | _ => none

/-- A character behind a backslash. -/
def escaped (c : Char) : List Char :=
  match escapeLetter? c with
  | some l => ['\\', l]
  | none =>
    if c.toNat ≤ 0xFF then '\\' :: 'x' :: upperHex 2 c.toNat
    else if c.toNat ≤ 0xFFFF then '\\' :: 'u' :: upperHex 4 c.toNat
    else '\\' :: 'U' :: upperHex 8 c.toNat

/-- A character in double quotes. -/
def inDouble (c : Char) : List Char :=
  if !isShown c || isAnyBreak c || c == '"' || c == '\\' then escaped c else [c]

/-- A character in single quotes. -/
def inSingle (c : Char) : List Char := if c = '\'' then ['\'', '\''] else [c]

/-- The signs in front of a text of several lines: its depth, when it begins with a blank or a
break, and whether the breaks at its end count. -/
def literalHead (cs : List Char) : List Char :=
  '|' ::
    ((if cs.head?.any fun c => c == ' ' || isAnyBreak c then ['2'] else []) ++
      match cs.reverse with
      | [] => ['-']
      | [c] => if isAnyBreak c then ['+'] else ['-']
      | c :: d :: _ => if !isAnyBreak c then ['-'] else if isAnyBreak d then ['+'] else [])

/-- A text as it is written, its further lines set in by some blanks. -/
def written (indent : Nat) (s : String) : List Char :=
  let cs := s.toList
  match formOf s with
  | .plain => cs
  | .singleQuoted =>
    '\'' :: setIn indent false (cs.flatMap inSingle) ++
      (if cs.getLast?.any isAnyBreak then blanks indent else []) ++ ['\'']
  | .doubleQuoted => '"' :: cs.flatMap inDouble ++ ['"']
  | .literal => literalHead cs ++ '\n' :: setIn indent true cs

/-! ## Documents -/

/-- What a document is written from. -/
inductive Block where
  | text (s : String)
  | integer (n : Int)
  | record (entries : List (String × Block))

/-- Whether a key stands on one line with its value. -/
def isSimpleKey (s : String) : Bool :=
  !s.toList.any isAnyBreak && Text.byteSize s.toList ≤ 128

/-- Characters with a line feed behind them unless they end in a break. -/
def endLine (cs : List Char) : List Char :=
  if cs.getLast?.any isBreak then cs else cs ++ ['\n']

namespace Block

/-- A key up to its colon, given the column at which it stands. -/
def keyText (indent : Nat) (k : String) : List Char :=
  if isSimpleKey k then written (indent + 2) k ++ [':']
  else '?' :: ' ' :: endLine (written (indent + 2) k) ++ blanks indent ++ [':']

/-- What stands between a key and a record. -/
def recordGap (indent : Nat) (k : String) : List Char :=
  if isSimpleKey k then '\n' :: blanks (indent + 2) else [' ']

mutual

/-- The text behind a key that stands at a column. -/
def valueText (indent : Nat) (k : String) : Block → List Char
  | text s => endLine (' ' :: written (indent + 2) s)
  | integer n => endLine (' ' :: (toString n).toList)
  | record [] => [' ', '\x7b', '\x7d', '\n']
  | record (e :: es) => recordGap indent k ++ entriesText (indent + 2) (e :: es)

/-- The text of entries, the first of which begins where the text goes on. -/
def entriesText (indent : Nat) : List (String × Block) → List Char
  | [] => []
  | [e] => keyText indent e.1 ++ valueText indent e.1 e.2
  | e :: f :: es =>
    keyText indent e.1 ++ valueText indent e.1 e.2 ++ blanks indent ++ entriesText indent (f :: es)

end

/-- The text of a document that is a record. -/
def document (es : List (String × Block)) : String := String.ofList (entriesText 0 es)

end Block

end Stencil.Yaml
