import Stencil.Yaml.Node
import Stencil.Yaml.Number

/-!
# Values in documents

How nodes are read as texts, numbers, truth values, lists and records. A text may be any scalar;
a number or a truth value is a plain one. An empty place counts as an empty list or an empty
record, a written null does not. A record may have further keys, but none that is read twice.

Nodes repeat where aliases stand for them, so a small document can spell a huge value. Reading
therefore has a budget: so many aliases may be followed as are a hundred times the parts of the
document.
-/

namespace Stencil.Yaml

/-- What is shown as the reason when a document cannot be read. -/
def malformed : String := "<yaml>"

/-! ## Reading within a budget -/

/-- A way to read a value of a document, with a count of the aliases that may still be
followed. -/
abbrev Decoder := ReaderT Document (StateT Nat Option)

namespace Decoder

/-- A value that may be there. -/
def ofOption {α : Type} (o : Option α) : Decoder α := fun _ budget => o.map (·, budget)

/-- No value. -/
def fail {α : Type} : Decoder α := ofOption none

/-- The node that an anchor's number stands for. -/
def follow (number : Nat) : Decoder Node := fun d budget =>
  match budget with
  | 0 => none
  | left + 1 => (d.node? number).map (·, left)

end Decoder

/-- The value that a document as a whole spells. -/
def Document.decode? {α : Type} (d : Document) (read : Node → Decoder α) : Option α :=
  (read d.root d (d.root.size * 100)).map (·.1)

/-- The value that a text spells as a document. -/
def decode? {α : Type} (text : String) (read : Node → Decoder α) : Option α := do
  (← Document.ofString? text).decode? read

/-! ## Scalars -/

namespace Node

/-- The node itself, or the one that an alias stands for. -/
def target : Node → Decoder Node
  | reference number => Decoder.follow number
  | n => pure n

/-- The text of any scalar. -/
def text (n : Node) : Decoder String := do
  match ← n.target with
  | scalar _ _ s => pure s
  | _ => .fail

/-- The text of a scalar that may stand for something else than a text: a plain one, or a
literal one with the tag of that kind. -/
def bare (kind : Tag) (n : Node) : Decoder String := do
  match ← n.target with
  | scalar tag style s =>
    if style = .plain || (style = .literal && tag == some kind) then pure s else .fail
  | _ => .fail

/-- A natural number. -/
def natural (largest : Nat) (n : Node) : Decoder Nat := do
  .ofOption (naturalOf? largest (← n.bare .int))

/-- The integer of 64 bits of a spelling. -/
def integerOf? (s : String) : Option Int :=
  match naturalOf? (capacity 63 - 1) s with
  | some k => some k
  | none => negativeOf? (capacity 63) s

/-- An integer of 64 bits. -/
def integer (n : Node) : Decoder Int := do .ofOption (integerOf? (← n.bare .int))

/-- A truth value. -/
def bool (n : Node) : Decoder Bool := do .ofOption (boolOf? (← n.bare .bool))

/-- Whether a scalar stands for no value, `none` when its tag says that it does and its text does
not. -/
def isAbsent? (tag : Option Tag) (style : Style) (s : String) : Option Bool :=
  if style != .plain then some false
  else match tag with
    | none => some (s == "" || isNull s)
    | some t => if t = .null then (if isNull s then some true else none) else some false

/-- A value that may be absent: an empty place or a plain null stands for none. -/
def option {α : Type} (read : Node → Decoder α) (n : Node) : Decoder (Option α) := do
  let n ← n.target
  match n with
  | scalar tag style s =>
    if ← .ofOption (isAbsent? tag style s) then pure none else some <$> read n
  | _ => some <$> read n

/-- The name of a constant: a text, or the local tag of an empty scalar. -/
def constant (n : Node) : Decoder String := do
  match ← n.target with
  | scalar tag style s =>
    match tag.bind Tag.localName? with
    | some name => if style = .plain && (s == "" || isNull s) then pure name else .fail
    | none => pure s
  | _ => .fail

/-- A value that is written as a constant, by its name. -/
def named {α : Type} (ofName? : String → Option α) (n : Node) : Decoder α := do
  .ofOption (ofName? (← n.constant))

/-! ## Collections -/

/-- Whether a node is an empty place. -/
def isBlank : Node → Bool
  | scalar _ style s => style == .plain && s == ""
  | _ => false

/-- The items of a list. -/
def items (n : Node) : Decoder (List Node) := do
  match ← n.target with
  | sequence _ ns => pure ns
  | n => if n.isBlank then pure [] else .fail

/-- A list of values. -/
def list {α : Type} (read : Node → Decoder α) (n : Node) : Decoder (List α) := do
  (← n.items).mapM read

/-- The entries of a record. -/
def entries (n : Node) : Decoder (List (String × Node)) := do
  match ← n.target with
  | mapping _ es => es.mapM fun e => do pure (← e.1.text, e.2)
  | n => if n.isBlank then pure [] else .fail

end Node

/-! ## Records -/

/-- The entries of a record by key. -/
abbrev Entries := List (String × Node)

namespace Entries

/-- The value of a key that must be there once. -/
def required {α : Type} (es : Entries) (key : String) (read : Node → Decoder α) : Decoder α :=
  match es.filter fun e => e.1 == key with
  | [e] => read e.2
  | _ => .fail

/-- The value of a key that may be there once. -/
def optional {α : Type} (es : Entries) (key : String) (default : α)
    (read : Node → Decoder α) : Decoder α :=
  match es.filter fun e => e.1 == key with
  | [] => pure default
  | [e] => read e.2
  | _ => .fail

end Entries

end Stencil.Yaml
