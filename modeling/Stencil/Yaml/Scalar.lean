import Stencil.Yaml.Glyph

/-!
# Scalars

The contents of plain, quoted and block scalars. Within a plain or quoted scalar a run of blanks
is kept, and a run that holds line breaks is folded: a single break becomes a space, and of
several the first is dropped.
-/

namespace Stencil.Yaml

/-- How a scalar was written. -/
inductive Style where
  | plain
  | quoted
  | literal
  | folded
deriving DecidableEq, Repr

/-- The blanks read since the last other character. -/
inductive Gap where
  | none
  | spaces (cs : List Char)
  /-- The first line break, unless it was escaped, and the further ones. -/
  | breaks (first : Option Char) (further : List Char)
deriving DecidableEq, Repr

namespace Gap

/-- The gap with a further space or tab. -/
def addSpace (c : Char) : Gap → Gap
  | none => spaces [c]
  | spaces cs => spaces (cs ++ [c])
  | breaks f r => breaks f r

/-- The gap with a further line break. -/
def addBreak (c : Char) : Gap → Gap
  | none => breaks (some c) []
  | spaces _ => breaks (some c) []
  | breaks f r => breaks f (r ++ [c])

/-- What a gap becomes in the content. -/
def content : Gap → List Char
  | none => []
  | spaces cs => cs
  | breaks (some '\n') [] => [' ']
  | breaks (some '\n') r => r
  | breaks (some c) r => c :: r
  | breaks Option.none r => r

/-- Whether the gap holds a line break. -/
def isBroken : Gap → Bool
  | breaks .. => true
  | _ => false

end Gap

/-! ## Plain scalars -/

/-- Whether a character ends a plain scalar inside brackets. -/
def isFlowEnd (c : Char) : Bool := c == ',' || c == '[' || c == ']' || c == '{' || c == '}'

/-- What was read of a scalar, in reverse, with the glyphs that follow it and whether a line
break was read behind it. -/
structure Scanned where
  content : List Char
  broken : Bool
  rest : List Glyph

/-- A plain scalar from some glyph on. `indent` is the least column of its further lines
outside brackets. -/
def plainScalar (inFlow : Bool) (indent : Int) (acc : List Char) (gap : Gap) :
    List Glyph → Option Scanned
  | [] => some ⟨acc, gap.isBroken, []⟩
  | g :: gs =>
    if isBreak g.char then plainScalar inFlow indent acc (gap.addBreak g.char) gs
    else if isGap g.char then
      if gap.isBroken && g.column < indent && g.char == '\t' then none
      else plainScalar inFlow indent acc (gap.addSpace g.char) gs
    else
      let stop : Option Scanned := some ⟨acc, gap.isBroken, g :: gs⟩
      if g.char = endMark then stop
      else if gap != .none && (g.char == '#' || (!inFlow && g.column < indent)) then stop
      else if (atMarker (g :: gs)).isSome then stop
      else if inFlow && g.char == ':' && (isFlowEnd (headChar gs) || headChar gs == '?') then none
      else if (g.char == ':' && isGapOrEnd (headChar gs)) || (inFlow && isFlowEnd g.char) then stop
      else plainScalar inFlow indent (g.char :: (gap.content.reverse ++ acc)) .none gs

/-! ## Quoted scalars -/

/-- Where the reader of a quoted scalar stands. -/
inductive QuoteState where
  | text
  /-- Behind a quote inside single quotes. -/
  | quote
  /-- Behind a backslash inside double quotes. -/
  | escape
  /-- Before so many further hexadecimal digits. -/
  | digits (left value : Nat)
deriving DecidableEq, Repr

/-- The character of a one-letter escape. -/
def simpleEscape (c : Char) : Option Char :=
  if c = '0' then some '\x00'
  else if c = 'a' then some '\x07'
  else if c = 'b' then some '\x08'
  else if c = 't' || c = '\t' then some '\t'
  else if c = 'n' then some '\n'
  else if c = 'v' then some '\x0b'
  else if c = 'f' then some '\x0c'
  else if c = 'r' then some '\r'
  else if c = 'e' then some '\x1b'
  else if c = ' ' || c = '"' || c = '/' || c = '\\' then some c
  else if c = 'N' then some '\u0085'
  else if c = '_' then some '\u00a0'
  else if c = 'L' then some '\u2028'
  else if c = 'P' then some '\u2029'
  else none

/-- The number of digits of a numeric escape. -/
def escapeDigits (c : Char) : Option Nat :=
  if c = 'x' then some 2 else if c = 'u' then some 4 else if c = 'U' then some 8 else none

/-- The value of a hexadecimal digit. -/
def hexValue (c : Char) : Option Nat :=
  if '0' ≤ c && c ≤ '9' then some (c.toNat - 48)
  else if 'a' ≤ c && c ≤ 'f' then some (c.toNat - 87)
  else if 'A' ≤ c && c ≤ 'F' then some (c.toNat - 55)
  else none

/-- The character of a number. -/
def charOfNumber (n : Nat) : Option Char :=
  if n.isValidChar then some (Char.ofNat n) else none

/-- A quoted scalar from behind its opening quote on. -/
def quotedScalar (single : Bool) (state : QuoteState) (acc : List Char) (gap : Gap) :
    List Glyph → Option Scanned
  | [] => none
  | g :: gs =>
    match state with
    | .quote =>
      if g.char = '\'' then quotedScalar single .text ('\'' :: acc) .none gs
      else some ⟨acc, false, g :: gs⟩
    | .digits left value =>
      match hexValue g.char with
      | none => none
      | some d =>
        match left with
        | 0 | 1 =>
          match charOfNumber (value * 16 + d) with
          | none => none
          | some c => quotedScalar single .text (c :: acc) .none gs
        | n + 2 => quotedScalar single (.digits (n + 1) (value * 16 + d)) acc .none gs
    | .escape =>
      if isBreak g.char then quotedScalar single .text acc (.breaks none []) gs
      else match simpleEscape g.char with
        | some c => quotedScalar single .text (c :: acc) .none gs
        | none =>
          match escapeDigits g.char with
          | some n => quotedScalar single (.digits n 0) acc .none gs
          | none => none
    | .text =>
      if g.char = endMark || (atMarker (g :: gs)).isSome then none
      else if isBreak g.char then quotedScalar single .text acc (gap.addBreak g.char) gs
      else if isGap g.char then quotedScalar single .text acc (gap.addSpace g.char) gs
      else
        let acc := gap.content.reverse ++ acc
        if single && g.char == '\'' then quotedScalar single .quote acc .none gs
        else if !single && g.char == '"' then some ⟨acc, false, gs⟩
        else if !single && g.char == '\\' then quotedScalar single .escape acc .none gs
        else quotedScalar single .text (g.char :: acc) .none gs

/-! ## Block scalars -/

/-- What becomes of the line breaks at the end of a block scalar. -/
inductive Chomp where
  | strip
  | clip
  | keep
deriving DecidableEq, Repr

/-- Where the reader of a block scalar stands. -/
structure BlockState where
  literal : Bool
  /-- The column of the content; 0 until it is known. -/
  indent : Nat
  /-- The largest column seen among the lines before the first that has content. -/
  widest : Nat := 0
  /-- Whether a line of content is being read. -/
  inLine : Bool := false
  acc : List Char := []
  /-- The break behind the last line of content. -/
  leading : List Char := []
  /-- The breaks of the empty lines after it. -/
  trailing : List Char := []
  /-- Whether the last line of content began with a blank. -/
  indented : Bool := false

namespace BlockState

/-- The column of the content as far as it is known at a line that has some. -/
def settledIndent (s : BlockState) (base : Int) (column : Nat) : Nat :=
  if s.indent = 0 then max (max (max s.widest column) (base + 1).toNat) 1 else s.indent

/-- The breaks in front of a line of content. -/
def joint (s : BlockState) (blank : Bool) : List Char :=
  if !s.literal && s.leading == ['\n'] && !s.indented && !blank then
    (if s.trailing.isEmpty then [' '] else []) ++ s.trailing
  else s.leading ++ s.trailing

/-- The content at the end, in reverse. -/
def finish (s : BlockState) (chomp : Chomp) : List Char :=
  match chomp with
  | .strip => s.acc
  | .clip => s.leading.reverse ++ s.acc
  | .keep => s.trailing.reverse ++ (s.leading.reverse ++ s.acc)

end BlockState

/-- The lines of a block scalar. `base` is the column of the collection around it. -/
def blockLines (chomp : Chomp) (base : Int) (s : BlockState) : List Glyph → Option Scanned
  | [] => some ⟨s.finish chomp, true, []⟩
  | g :: gs =>
    if s.inLine then
      if isBreak g.char then
        blockLines chomp base { s with inLine := false, leading := [g.char] } gs
      else if g.char = endMark then some ⟨s.finish chomp, true, g :: gs⟩
      else blockLines chomp base { s with acc := g.char :: s.acc } gs
    else
      let before := s.indent = 0 || g.column < s.indent
      if before && g.char == ' ' then blockLines chomp base s gs
      else if before && g.char == '\t' then none
      else if isBreak g.char then
        blockLines chomp base
          { s with trailing := s.trailing ++ [g.char], widest := max s.widest g.column } gs
      else
        let indent := s.settledIndent base g.column
        if g.column = indent && g.char != endMark then
          blockLines chomp base
            { s with
              indent
              inLine := true
              acc := g.char :: ((s.joint (isGap g.char)).reverse ++ s.acc)
              leading := []
              trailing := []
              indented := isGap g.char } gs
        else some ⟨s.finish chomp, true, g :: gs⟩

/-- The header of a block scalar: chomping and indentation in either order. -/
def blockHeader : List Glyph → Option (Chomp × Nat × List Glyph)
  | gs =>
    let chompOf (c : Char) : Option Chomp :=
      if c = '+' then some .keep else if c = '-' then some .strip else none
    let digitOf (c : Char) : Option Nat := if c.isDigit then some (c.toNat - 48) else none
    let positive (n : Nat) (r : Chomp × Nat × List Glyph) :=
      if n = 0 then none else some r
    match chompOf (headChar gs) with
    | some chomp =>
      match digitOf (headChar gs.tail) with
      | some n => positive n (chomp, n, gs.tail.tail)
      | none => some (chomp, 0, gs.tail)
    | none =>
      match digitOf (headChar gs) with
      | some n =>
        match chompOf (headChar gs.tail) with
        | some chomp => positive n (chomp, n, gs.tail.tail)
        | none => positive n (.clip, n, gs.tail)
      | none => some (.clip, 0, gs)

/-- The glyphs behind blanks and a comment. -/
def afterComment (gs : List Glyph) : List Glyph :=
  let gs := gs.dropWhile fun g => isGap g.char
  if headChar gs == '#' then gs.dropWhile fun g => !isBreakOrEnd g.char else gs

/-- A block scalar from behind its indicator on. -/
def blockScalar (literal : Bool) (base : Int) (gs : List Glyph) : Option Scanned := do
  let (chomp, increment, gs) ← blockHeader gs
  let gs := afterComment gs
  if !isBreakOrEnd (headChar gs) then none
  let indent := if increment = 0 then 0 else (max base 0).toNat + increment
  blockLines chomp base { literal, indent }
    (if isBreak (headChar gs) then gs.tail else gs)

end Stencil.Yaml
