import Stencil.Yaml.Tag

/-!
# Tokens of a document

The scanner turns indentation into block tokens. A scalar, an anchor or a collection that begins
where a key may stand is remembered, and when a `:` follows on the same line a key token is put
in front of it.
-/

namespace Stencil.Yaml

/-- A token of a document. -/
inductive Token where
  | versionDirective (major minor : Nat)
  | tagDirective (handle : String) (value : Text.Bytes)
  | documentStart
  | documentEnd
  | blockSequenceStart
  | blockMappingStart
  | blockEnd
  | flowSequenceStart
  | flowSequenceEnd
  | flowMappingStart
  | flowMappingEnd
  | blockEntry
  | flowEntry
  | key
  | value
  | alias (name : String)
  | anchor (name : String)
  /-- A tag whose handle is empty is named by its suffix alone. -/
  | tag (handle : String) (suffix : Text.Bytes)
  | scalar (style : Style) (content : String)
  | streamEnd
deriving DecidableEq, Repr

/-- A token that would become a key if a `:` followed. -/
structure KeyCandidate where
  /-- Where the key token would be put. -/
  position : Nat
  /-- Whether the block structure demands a key here. -/
  required : Bool
  line : Nat
  column : Nat
  index : Nat
deriving DecidableEq, Repr

/-- The state of the scanner. -/
structure Scanner where
  rest : List Glyph
  tokens : Array Token := #[]
  /-- The column of the innermost block collection, -1 outside of any. -/
  indent : Int := -1
  /-- The columns of the block collections around it. -/
  outer : List Int := []
  /-- The candidate on the current level of brackets. -/
  candidate : Option KeyCandidate := none
  /-- The candidates on the levels around it. -/
  outerCandidates : List (Option KeyCandidate) := []
  /-- Whether a key may begin here. -/
  keyAllowed : Bool := true
deriving Repr

namespace Scanner

/-- Whether the scanner is inside brackets. -/
def inFlow (s : Scanner) : Bool := !s.outerCandidates.isEmpty

/-- The place of the next glyph. -/
def column (s : Scanner) : Nat :=
  match s.rest with
  | [] => 0
  | g :: _ => g.column

/-- The scanner with a further token. -/
def emit (s : Scanner) (t : Token) : Scanner := { s with tokens := s.tokens.push t }

/-- The scanner with a token put in front of earlier ones. -/
def insertAt (s : Scanner) (position : Nat) (t : Token) : Scanner :=
  { s with
    tokens := s.tokens.extract 0 position ++ #[t] ++ s.tokens.extract position s.tokens.size }

/-- The scanner behind so many glyphs. -/
def skip (s : Scanner) (n : Nat) : Scanner := { s with rest := s.rest.drop n }

/-- Forgets the candidate, unless it had to be a key. -/
def dropCandidate (s : Scanner) : Option Scanner :=
  match s.candidate with
  | some k => if k.required then none else some { s with candidate := none }
  | none => some s

/-- Remembers the place as a candidate, when a key may begin here. -/
def saveCandidate (s : Scanner) : Option Scanner :=
  match s.rest with
  | [] => some s
  | g :: _ =>
    if s.keyAllowed then
      s.dropCandidate.map fun s =>
        { s with
          candidate := some
            { position := s.tokens.size
              required := !s.inFlow && s.indent == g.column
              line := g.line
              column := g.column
              index := g.index } }
    else some s

/-- Whether a candidate can no longer become a key: a key stays on one line and within 1024
characters. -/
def isStale (g : Glyph) (k : KeyCandidate) : Bool :=
  k.line < g.line || k.index + 1024 < g.index

/-- Drops a stale candidate; fails when it had to be a key. -/
def refresh (g : Glyph) : Option KeyCandidate → Option (Option KeyCandidate)
  | none => some none
  | some k => if isStale g k then (if k.required then none else some none) else some (some k)

/-- Drops the stale candidates of all levels. -/
def dropStale (s : Scanner) : Option Scanner :=
  match s.rest with
  | [] => some s
  | g :: _ => do
    let candidate ← refresh g s.candidate
    let outerCandidates ← s.outerCandidates.mapM (refresh g)
    pure { s with candidate, outerCandidates }

/-- Opens a block collection at a column further right than the current one. -/
def roll (s : Scanner) (column : Nat) (position : Option Nat) (t : Token) : Scanner :=
  if !s.inFlow && s.indent < column then
    let s := { s with outer := s.indent :: s.outer, indent := column }
    match position with
    | some p => s.insertAt p t
    | none => s.emit t
  else s

/-- Closes the block collections that begin right of a column. -/
def unrollTo (column : Int) : List Int → Scanner → Scanner
  | [], s => s
  | i :: is, s =>
    if s.indent > column then
      unrollTo column is ({ s with indent := i, outer := is }.emit .blockEnd)
    else s

/-- Closes the block collections that begin right of a column, outside brackets. -/
def unroll (s : Scanner) (column : Int) : Scanner :=
  if s.inFlow then s else unrollTo column s.outer s

/-! ## Blanks and comments -/

/-- Skips blanks, line breaks and comments, and a byte order mark at the beginning of a line. A
line break outside brackets allows a key. -/
def toToken (inFlow keyAllowed comment : Bool) : List Glyph → Bool × List Glyph
  | [] => (keyAllowed, [])
  | g :: gs =>
    if g.column = 0 && g.char == byteOrderMark then toToken inFlow keyAllowed comment gs
    else if isBreak g.char then toToken inFlow (keyAllowed || !inFlow) false gs
    else if comment then
      if g.char = endMark then (keyAllowed, g :: gs) else toToken inFlow keyAllowed true gs
    else if g.char == ' ' || (g.char == '\t' && (inFlow || !keyAllowed)) then
      toToken inFlow keyAllowed false gs
    else if g.char == '#' then toToken inFlow keyAllowed true gs
    else (keyAllowed, g :: gs)

/-! ## Indicators -/

/-- Opens a flow collection. -/
def openFlow (s : Scanner) (t : Token) : Option Scanner :=
  s.saveCandidate.map fun s =>
    { (s.skip 1).emit t with
      candidate := none
      outerCandidates := s.candidate :: s.outerCandidates
      keyAllowed := true }

/-- Closes a flow collection. -/
def closeFlow (s : Scanner) (t : Token) : Option Scanner :=
  s.dropCandidate.map fun s =>
    match s.outerCandidates with
    | [] => { (s.skip 1).emit t with keyAllowed := false }
    | c :: cs =>
      { (s.skip 1).emit t with candidate := c, outerCandidates := cs, keyAllowed := false }

/-- A comma between the entries of a flow collection. -/
def flowEntry (s : Scanner) : Option Scanner :=
  s.dropCandidate.map fun s => { (s.skip 1).emit .flowEntry with keyAllowed := true }

/-- A dash before an entry of a block sequence. -/
def blockEntry (s : Scanner) : Option Scanner :=
  if !s.inFlow && !s.keyAllowed then none
  else
    (s.roll s.column none .blockSequenceStart).dropCandidate.map fun s =>
      { (s.skip 1).emit .blockEntry with keyAllowed := true }

/-- A question mark before a key. -/
def explicitKey (s : Scanner) : Option Scanner :=
  if !s.inFlow && !s.keyAllowed then none
  else
    (s.roll s.column none .blockMappingStart).dropCandidate.map fun s =>
      { (s.skip 1).emit .key with keyAllowed := !s.inFlow }

/-- A colon before a value: it makes the candidate a key. -/
def valueMark (s : Scanner) : Option Scanner :=
  match s.candidate with
  | some k =>
    let s := { s with candidate := none }.insertAt k.position .key
    let s := s.roll k.column (some k.position) .blockMappingStart
    some { (s.skip 1).emit .value with keyAllowed := false }
  | none =>
    if !s.inFlow && !s.keyAllowed then none
    else
      let s := s.roll s.column none .blockMappingStart
      some { (s.skip 1).emit .value with keyAllowed := !s.inFlow }

/-! ## Names -/

/-- The leading glyphs with a property, as text, and what follows. -/
def span (p : Char → Bool) (gs : List Glyph) : List Char × List Glyph :=
  ((gs.takeWhile fun g => p g.char).map Glyph.char, gs.dropWhile fun g => p g.char)

/-- The name of an anchor or alias behind its indicator. -/
def anchorName (gs : List Glyph) : Option (String × List Glyph) :=
  let (name, rest) := span isNameChar gs
  let c := headChar rest
  if !name.isEmpty && (isGapOrEnd c || ['?', ':', ',', ']', '}', '%', '@', '\x60'].contains c) then
    some (String.ofList name, rest)
  else none

/-- An anchor or an alias. -/
def anchor (s : Scanner) (t : String → Token) : Option Scanner := do
  let s ← s.saveCandidate
  let (name, rest) ← anchorName (s.rest.drop 1)
  pure { s.emit (t name) with rest, keyAllowed := false }

/-- The handle and the suffix of a tag whose first `!` has been read. A lone `!` is a tag of its
own. -/
def tagParts (gs : List Glyph) : Option ((String × Text.Bytes) × List Glyph) :=
  if headChar gs == '<' then do
    let (name, rest) ← tagName? true gs.tail
    if headChar rest != '>' then none
    pure (("", name), rest.tail)
  else
    let (name, rest) := span isNameChar gs
    if headChar rest == '!' then do
      let (suffix, rest) ← tagName? false rest.tail
      pure ((String.ofList ('!' :: name ++ ['!']), suffix), rest)
    else do
      let (bytes, rest) ← tagBytes false 0 gs
      let suffix := beforeZero bytes
      pure (if suffix.isEmpty then ("", [Tag.mark]) else ("!", suffix), rest)

/-- A tag. -/
def tag (s : Scanner) : Option Scanner := do
  let s ← s.saveCandidate
  let ((handle, suffix), rest) ← tagParts (s.rest.drop 1)
  if isGapOrEnd (headChar rest) || (s.inFlow && headChar rest == ',') then
    pure { s.emit (.tag handle suffix) with rest, keyAllowed := false }
  else none

/-! ## Scalars -/

/-- The scanner behind a scalar. -/
def scalar (s : Scanner) (style : Style) (keyAllowed : Bool) (r : Scanned) : Scanner :=
  { s.emit (.scalar style (String.ofList r.content.reverse)) with rest := r.rest, keyAllowed }

/-- A plain scalar. -/
def plain (s : Scanner) : Option Scanner := do
  let s ← s.saveCandidate
  let r ← plainScalar s.inFlow (s.indent + 1) [] .none s.rest
  pure (s.scalar .plain r.broken r)

/-- A quoted scalar. -/
def quoted (s : Scanner) (single : Bool) : Option Scanner := do
  let s ← s.saveCandidate
  let r ← quotedScalar single .text [] .none (s.rest.drop 1)
  pure (s.scalar .quoted false r)

/-- A block scalar. -/
def block (s : Scanner) (literal : Bool) : Option Scanner := do
  let s ← s.dropCandidate
  let r ← blockScalar literal s.indent (s.rest.drop 1)
  pure (s.scalar (if literal then .literal else .folded) true r)

/-! ## Directives and documents -/

/-- The digits of a version number; nine at most. -/
def number (gs : List Glyph) : Option (Nat × List Glyph) :=
  let (digits, rest) := span Char.isDigit gs
  if digits.isEmpty || 9 < digits.length then none
  else some (digits.foldl (fun n c => n * 10 + (c.toNat - 48)) 0, rest)

/-- The glyphs behind blanks. -/
def afterGaps (gs : List Glyph) : List Glyph := gs.dropWhile fun g => isGap g.char

/-- A directive behind its `%`. -/
def directiveToken (gs : List Glyph) : Option (Token × List Glyph) := do
  let (name, rest) := span isNameChar gs
  if name.isEmpty || !isGapOrEnd (headChar rest) then none
  let rest := afterGaps rest
  if String.ofList name = "YAML" then
    let (major, rest) ← number rest
    if headChar rest != '.' then none
    let (minor, rest) ← number rest.tail
    pure (.versionDirective major minor, rest)
  else if String.ofList name = "TAG" then
    if headChar rest != '!' then none
    let (inner, rest) := span isNameChar rest.tail
    let closed := headChar rest == '!'
    if !closed && !inner.isEmpty then none
    let rest := if closed then rest.tail else rest
    if !isGap (headChar rest) then none
    let (value, rest) ← tagName? true (afterGaps rest)
    if !isGapOrEnd (headChar rest) then none
    pure (.tagDirective (String.ofList ('!' :: inner ++ (if closed then ['!'] else []))) value,
      rest)
  else none

/-- A directive line. -/
def directive (s : Scanner) : Option Scanner := do
  let s ← (s.unroll (-1)).dropCandidate
  let (t, rest) ← directiveToken (s.rest.drop 1)
  let rest := afterComment rest
  if !isBreakOrEnd (headChar rest) then none
  pure { s.emit t with
    rest := if isBreak (headChar rest) then rest.tail else rest
    keyAllowed := false }

/-- A document marker. -/
def marker (s : Scanner) (t : Token) : Option Scanner :=
  (s.unroll (-1)).dropCandidate.map fun s => { (s.skip 3).emit t with keyAllowed := false }

/-- The end of the stream. -/
def finish (s : Scanner) : Option Scanner :=
  (s.unroll (-1)).dropCandidate.map fun s => { s.emit .streamEnd with keyAllowed := false }

/-! ## The next token -/

/-- Characters that do not begin a plain scalar. -/
def isIndicator (c : Char) : Bool :=
  ['-', '?', ':', ',', '[', ']', '{', '}', '#', '&', '*', '!', '|', '>', '\'', '"', '%', '@',
    '\x60'].contains c

/-- Reads the next token, whose first character is `c` with `d` behind it. -/
def fetch (s : Scanner) (c d : Char) : Option Scanner :=
  let separate := isGapOrEnd d
  if s.column = 0 && c == '%' then s.directive
  else if atMarker s.rest = some '-' then s.marker .documentStart
  else if atMarker s.rest = some '.' then s.marker .documentEnd
  else if c == '[' then s.openFlow .flowSequenceStart
  else if c == '{' then s.openFlow .flowMappingStart
  else if c == ']' then s.closeFlow .flowSequenceEnd
  else if c == '}' then s.closeFlow .flowMappingEnd
  else if c == ',' then s.flowEntry
  else if c == '-' && separate then s.blockEntry
  else if c == '?' && (s.inFlow || separate) then s.explicitKey
  else if c == ':' && (s.inFlow || separate) then s.valueMark
  else if c == '*' then s.anchor .alias
  else if c == '&' then s.anchor .anchor
  else if c == '!' then s.tag
  else if c == '|' && !s.inFlow then s.block true
  else if c == '>' && !s.inFlow then s.block false
  else if c == '\'' then s.quoted true
  else if c == '"' then s.quoted false
  else if !(isGapOrEnd c || isIndicator c) || (c == '-' && !isGap d) ||
      (!s.inFlow && (c == '?' || c == ':') && !separate) then s.plain
  else none

/-- Reads one token; the second component tells whether it is the last. -/
def step (s : Scanner) : Option (Scanner × Bool) := do
  let (keyAllowed, rest) := toToken s.inFlow s.keyAllowed false s.rest
  let s ← { s with keyAllowed, rest }.dropStale
  let s := s.unroll s.column
  match s.rest with
  | [] => none
  | g :: gs =>
    if g.char = endMark then s.finish.map (·, true)
    else (s.fetch g.char (headChar gs)).map (·, false)

/-- Reads tokens to the end, at most `fuel` of them. -/
def run : (fuel : Nat) → Scanner → Option (Array Token)
  | 0, _ => none
  | fuel + 1, s => do
    let (s, done) ← s.step
    if done then pure s.tokens else run fuel s

end Scanner

/-- The tokens of a document stream. Every token but the last takes a character at least. -/
def Token.scan? (text : String) : Option (List Token) := do
  let glyphs ← Glyph.ofString? text
  let tokens ← Scanner.run (glyphs.length + 1) { rest := glyphs }
  pure tokens.toList

end Stencil.Yaml
