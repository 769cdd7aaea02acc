import Stencil.Yaml.Token

/-!
# Documents as trees

A document is a tree of scalars, sequences and mappings. An alias is kept as the number of an
anchor; the document tells which node the number stands for. An anchor takes as its number how
many other names of anchors came before. So a name given a second time does not take the number
that it had, and leaves its new one to the next new name; and the number stands for the node that
took it last, wherever the alias is. An alias may stand inside the very node that it names.
-/

namespace Stencil.Yaml

/-- A node of a document. -/
inductive Node where
  | scalar (tag : Option Tag) (style : Style) (content : String)
  | sequence (tag : Option Tag) (items : List Node)
  | mapping (tag : Option Tag) (entries : List (Node × Node))
  /-- The node that an anchor's number stands for. -/
  | reference (number : Nat)
deriving Repr

namespace Node

/-- The scalar of an empty place. -/
def blank : Node := .scalar none .plain ""

mutual

/-- The number of parts of a node: one for a scalar or an alias, and for a collection its
beginning, its end and the parts between them. -/
def size : Node → Nat
  | scalar .. | reference _ => 1
  | sequence _ items => 2 + sizeOfItems items
  | mapping _ entries => 2 + sizeOfEntries entries

/-- The number of parts of some nodes. -/
def sizeOfItems : List Node → Nat
  | [] => 0
  | n :: ns => n.size + sizeOfItems ns

/-- The number of parts of some keys and values. -/
def sizeOfEntries : List (Node × Node) → Nat
  | [] => 0
  | e :: es => e.1.size + e.2.size + sizeOfEntries es

end

end Node

/-- A node with an anchor. -/
structure Anchored where
  /-- The number of its anchor. -/
  number : Nat
  /-- How many tokens were left where the node began. -/
  left : Nat
  node : Node

/-- A document. -/
structure Document where
  root : Node := .blank
  anchored : List Anchored := []

namespace Document

/-- The later one of two anchored nodes. -/
def later (latest : Option Anchored) (a : Anchored) : Option Anchored :=
  match latest with
  | none => some a
  | some b => if a.left < b.left then some a else some b

/-- The node that a number stands for. -/
def node? (d : Document) (number : Nat) : Option Node :=
  ((d.anchored.filter (·.number == number)).foldl later none).map (·.node)

end Document

namespace Node

/-- The handles of tags with their expansions. -/
abbrev Handles := List (String × Text.Bytes)

/-- The handles that every document knows. -/
def defaultHandles : Handles := [("!", [Tag.mark]), ("!!", (Tag.core "").bytes)]

/-- The state of the tree reader. -/
structure Reader where
  tokens : List Token
  /-- The names of anchors with the numbers that they took last. -/
  names : List (String × Nat) := []
  anchored : List Anchored := []
  handles : Handles := defaultHandles

namespace Reader

/-- The next token. -/
def peek (r : Reader) : Token := r.tokens.head?.getD .streamEnd

/-- The reader behind the next token. -/
def skip (r : Reader) : Reader := { r with tokens := r.tokens.tail }

/-- The node of an alias, whose name has to be known. -/
def aliased (r : Reader) (name : String) : Option Node :=
  (r.names.find? fun e => e.1 == name).map fun e => .reference e.2

/-- The reader with the name of an anchor for a node that begins here, and its number. -/
def begin (r : Reader) : Option String → Option Nat × Reader
  | none => (none, r)
  | some name =>
    let number := r.names.length
    (some number, { r with names := (name, number) :: r.names.filter fun e => e.1 != name })

/-- The reader behind a node that began with so many tokens left. -/
def close (r : Reader) (number : Option Nat) (left : Nat) (node : Node) : Reader :=
  match number with
  | none => r
  | some number => { r with anchored := { number, left, node } :: r.anchored }

/-- The full name of a tag. -/
def resolveTag (r : Reader) (handle : String) (suffix : Text.Bytes) : Option Tag :=
  if handle = "" then some ⟨suffix⟩
  else (r.handles.find? fun e => e.1 == handle).map fun e => ⟨e.2 ++ suffix⟩

/-- Anchor and tag in front of a node, in either order. -/
def properties (r : Reader) : Option ((Option String × Option Tag) × Reader) :=
  match r.peek with
  | .anchor a =>
    match r.skip.peek with
    | .tag h s => do
      let t ← r.resolveTag h s
      pure ((some a, some t), r.skip.skip)
    | _ => some ((some a, none), r.skip)
  | .tag h s => do
    let t ← r.resolveTag h s
    match r.skip.peek with
    | .anchor a => pure ((some a, some t), r.skip.skip)
    | _ => pure ((none, some t), r.skip)
  | _ => some ((none, none), r)

end Reader

mutual

/-- A node. `block` allows block collections, `indentless` a sequence whose dashes stand at the
column of the mapping around it. -/
def read (fuel : Nat) (block indentless : Bool) (r : Reader) : Option (Node × Reader) :=
  match fuel with
  | 0 => none
  | fuel + 1 =>
    match r.peek with
    | .alias name => do
      let n ← r.aliased name
      pure (n, r.skip)
    | _ => do
      let ((anchor, tag), r) ← r.properties
      let left := r.tokens.length
      let (number, r) := r.begin anchor
      let finish (n : Node) (r : Reader) : Option (Node × Reader) :=
        some (n, r.close number left n)
      match r.peek with
      | .blockEntry =>
        if indentless then do
          let (items, r) ← readIndentless fuel r
          finish (.sequence tag items) r
        else if anchor.isSome || tag.isSome then finish (.scalar tag .plain "") r
        else none
      | .scalar style content => finish (.scalar tag style content) r.skip
      | .flowSequenceStart => do
        let (items, r) ← readFlowItems fuel true r.skip
        finish (.sequence tag items) r
      | .flowMappingStart => do
        let (entries, r) ← readFlowEntries fuel true r.skip
        finish (.mapping tag entries) r
      | .blockSequenceStart =>
        if block then do
          let (items, r) ← readBlockItems fuel r.skip
          finish (.sequence tag items) r
        else if anchor.isSome || tag.isSome then finish (.scalar tag .plain "") r
        else none
      | .blockMappingStart =>
        if block then do
          let (entries, r) ← readBlockEntries fuel r.skip
          finish (.mapping tag entries) r
        else if anchor.isSome || tag.isSome then finish (.scalar tag .plain "") r
        else none
      | _ =>
        if anchor.isSome || tag.isSome then finish (.scalar tag .plain "") r else none

/-- The items of a block sequence up to its end. -/
def readBlockItems (fuel : Nat) (r : Reader) : Option (List Node × Reader) :=
  match fuel with
  | 0 => none
  | fuel + 1 =>
    match r.peek with
    | .blockEnd => some ([], r.skip)
    | .blockEntry => do
      let (n, r) ← match r.skip.peek with
        | .blockEntry | .blockEnd => some (blank, r.skip)
        | _ => read fuel true false r.skip
      let (ns, r) ← readBlockItems fuel r
      pure (n :: ns, r)
    | _ => none

/-- The items of a sequence at the column of the mapping around it. -/
def readIndentless (fuel : Nat) (r : Reader) : Option (List Node × Reader) :=
  match fuel with
  | 0 => none
  | fuel + 1 =>
    match r.peek with
    | .blockEntry => do
      let (n, r) ← match r.skip.peek with
        | .blockEntry | .key | .value | .blockEnd => some (blank, r.skip)
        | _ => read fuel true false r.skip
      let (ns, r) ← readIndentless fuel r
      pure (n :: ns, r)
    | _ => some ([], r)

/-- A key or a value of a block mapping, behind its token. -/
def readBlockPart (fuel : Nat) (r : Reader) : Option (Node × Reader) :=
  match fuel with
  | 0 => none
  | fuel + 1 =>
    match r.peek with
    | .key | .value | .blockEnd => some (blank, r)
    | _ => read fuel true true r

/-- The entries of a block mapping up to its end. -/
def readBlockEntries (fuel : Nat) (r : Reader) : Option (List (Node × Node) × Reader) :=
  match fuel with
  | 0 => none
  | fuel + 1 =>
    match r.peek with
    | .blockEnd => some ([], r.skip)
    | .key => do
      let (k, r) ← readBlockPart fuel r.skip
      let (v, r) ← match r.peek with
        | .value => readBlockPart fuel r.skip
        | _ => some (blank, r)
      let (es, r) ← readBlockEntries fuel r
      pure ((k, v) :: es, r)
    | _ => none

/-- The items of a flow sequence up to its end. An item with a key is a mapping of one entry. -/
def readFlowItems (fuel : Nat) (first : Bool) (r : Reader) : Option (List Node × Reader) :=
  match fuel with
  | 0 => none
  | fuel + 1 =>
    match r.peek with
    | .flowSequenceEnd => some ([], r.skip)
    | t => do
      let r ← if first then some r else if t = .flowEntry then some r.skip else none
      match r.peek with
      | .flowSequenceEnd => some ([], r.skip)
      | .key => do
        let (k, r) ← match r.skip.peek with
          | .value | .flowEntry | .flowSequenceEnd => some (blank, r.skip.skip)
          | _ => read fuel false false r.skip
        let (v, r) ← match r.peek with
          | .value =>
            match r.skip.peek with
            | .flowEntry | .flowSequenceEnd => some (blank, r.skip)
            | _ => read fuel false false r.skip
          | _ => some (blank, r)
        let (ns, r) ← readFlowItems fuel false r
        pure (.mapping none [(k, v)] :: ns, r)
      | _ => do
        let (n, r) ← read fuel false false r
        let (ns, r) ← readFlowItems fuel false r
        pure (n :: ns, r)

/-- The entries of a flow mapping up to its end. -/
def readFlowEntries (fuel : Nat) (first : Bool) (r : Reader) :
    Option (List (Node × Node) × Reader) :=
  match fuel with
  | 0 => none
  | fuel + 1 =>
    match r.peek with
    | .flowMappingEnd => some ([], r.skip)
    | t => do
      let r ← if first then some r else if t = .flowEntry then some r.skip else none
      match r.peek with
      | .flowMappingEnd => some ([], r.skip)
      | .key => do
        let (k, r) ← match r.skip.peek with
          | .value | .flowEntry | .flowMappingEnd => some (blank, r.skip)
          | _ => read fuel false false r.skip
        let (v, r) ← match r.peek with
          | .value =>
            match r.skip.peek with
            | .flowEntry | .flowMappingEnd => some (blank, r.skip)
            | _ => read fuel false false r.skip
          | _ => some (blank, r)
        let (es, r) ← readFlowEntries fuel false r
        pure ((k, v) :: es, r)
      | _ => do
        let (k, r) ← read fuel false false r
        let (es, r) ← readFlowEntries fuel false r
        pure ((k, blank) :: es, r)

end

/-! ## Documents -/

/-- The reader behind the directives of a document; each kind of directive is checked. -/
def readDirectives : (seenVersion : Bool) → List Token → Handles → Option (List Token × Handles)
  | seen, .versionDirective major minor :: ts, hs =>
    if seen || major != 1 || (minor != 1 && minor != 2) then none
    else readDirectives true ts hs
  | seen, .tagDirective h v :: ts, hs =>
    if hs.any fun e => e.1 == h then none else readDirectives seen ts ((h, v) :: hs)
  | _, ts, hs => some (ts, hs)

/-- Whether a document is empty at a token. -/
def endsDocument : Token → Bool
  | .versionDirective .. | .tagDirective .. | .documentStart | .documentEnd | .streamEnd => true
  | _ => false

/-- The document at the beginning of some tokens, `none` inside when there is none left, and the
tokens behind it. The first document needs no marker. -/
def readDocument (first : Bool) (tokens : List Token) : Option (Option Document × List Token) :=
  let tokens := if first then tokens else tokens.dropWhile (· == .documentEnd)
  match tokens with
  | [] | .streamEnd :: _ => some (none, [])
  | t :: _ =>
    let fuel := 3 * tokens.length + 3
    let readFrom (r : Reader) : Option (Option Document × List Token) := do
      let (root, r) ← read fuel true false r
      pure (some { root, anchored := r.anchored }, r.tokens)
    if first && !endsDocument t then readFrom { tokens }
    else do
      let (ts, hs) ← readDirectives false tokens []
      match ts with
      | .documentStart :: ts =>
        if endsDocument (ts.head?.getD .streamEnd) then some (some {}, ts)
        else
          readFrom
            { tokens := ts
              handles := hs ++ defaultHandles.filter fun e => !hs.any fun h => h.1 == e.1 }
      | _ => none

end Node

/-- The document of a text with at most one; an empty text counts as a blank. -/
def Document.ofString? (text : String) : Option Document := do
  let tokens ← Token.scan? text
  match ← Node.readDocument true tokens with
  | (none, _) => pure {}
  | (some d, rest) =>
    match ← Node.readDocument false rest with
    | (none, _) => pure d
    | (some _, _) => none

end Stencil.Yaml
