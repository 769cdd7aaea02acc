/-!
# Characters with their places

A document is scanned as a list of glyphs: characters that know their line, their column and
their index. The four spellings of a line break that readers write down as a line feed are
brought to one beforehand, and a final glyph with the character `\0`, which no document may hold,
marks the end. A byte order mark is a character like any other; it takes up a column even where
it is skipped.
-/

namespace Stencil.Yaml

/-- A character with its place; all counts begin at 0. -/
structure Glyph where
  char : Char
  line : Nat
  column : Nat
  index : Nat
deriving DecidableEq, Repr

/-- The character that marks the end. -/
def endMark : Char := '\x00'

/-- The byte order mark. -/
def byteOrderMark : Char := '\uFEFF'

/-- Whether a character ends a line. -/
def isBreak (c : Char) : Bool := c == '\n' || c == '\u2028' || c == '\u2029'

/-- Whether a character is a space or a tab. -/
def isGap (c : Char) : Bool := c == ' ' || c == '\t'

/-- Whether a character ends a line or the document. -/
def isBreakOrEnd (c : Char) : Bool := isBreak c || c == endMark

/-- Whether a character separates words. -/
def isGapOrEnd (c : Char) : Bool := isGap c || isBreakOrEnd c

/-- Whether a document may hold a character. -/
def isAllowed (c : Char) : Bool :=
  let n := c.toNat
  n == 9 || n == 10 || n == 13 || (0x20 ≤ n && n ≤ 0x7E) || n == 0x85 ||
    (0xA0 ≤ n && n ≤ 0xFFFD) || 0x10000 ≤ n

/-- Line breaks brought to line feeds. -/
def unifyBreaks : List Char → List Char
  | [] => []
  | '\r' :: '\n' :: cs => '\n' :: unifyBreaks cs
  | c :: cs => (if c = '\r' || c = '\u0085' then '\n' else c) :: unifyBreaks cs

namespace Glyph

/-- Characters placed one after the other, with the end mark behind them. -/
def place (line column index : Nat) : List Char → List Glyph
  | [] => [⟨endMark, line, column, index⟩]
  | c :: cs =>
    ⟨c, line, column, index⟩ ::
      (if isBreak c then place (line + 1) 0 (index + 1) cs
      else place line (column + 1) (index + 1) cs)

/-- The glyphs of a text, when it holds only permitted characters. -/
def ofString? (s : String) : Option (List Glyph) :=
  if s.toList.all isAllowed then some (place 0 0 0 (unifyBreaks s.toList)) else none

end Glyph

/-- The first character of a list, the end mark at its end. -/
def headChar (gs : List Glyph) : Char :=
  match gs with
  | [] => endMark
  | g :: _ => g.char

/-- Whether a document marker, `---` or `...`, stands at the beginning of a line. -/
def atMarker : List Glyph → Option Char
  | a :: b :: c :: gs =>
    if a.column = 0 && (a.char == '-' || a.char == '.') && b.char == a.char && c.char == a.char &&
        isGapOrEnd (headChar gs) then
      some a.char
    else none
  | _ => none

end Stencil.Yaml
