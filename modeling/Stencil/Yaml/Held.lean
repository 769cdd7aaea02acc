import Stencil.Yaml.Decode

/-!
# Values held before their kind is known

Some keys of a record are read only when all others are known not to be meant. Their values, and
those of unknown keys beside them, are held in between as what they are by themselves. Not every
node can be held: none with a local tag, no integer that needs more than 64 bits, none whose tag
does not fit its text, and none that is nested too deep.
-/

namespace Stencil.Yaml

/-- A value by itself. -/
inductive Held where
  | nothing
  | truth (b : Bool)
  | natural (n : Nat)
  /-- An integer with a minus in front, which may be `-0`. -/
  | negative (n : Int)
  | fraction
  | text (s : String)
  | list (items : List Held)
  | record (entries : List (Held × Held))
deriving Repr

namespace Held

/-- The integer of a spelling, `none` inside when it needs more than 64 bits but not more than
128, and outside when the spelling is no such integer. -/
def integerOf? (s : String) : Option (Option Held) :=
  match naturalOf? maxWord s, negativeOf? (capacity 63) s with
  | some n, _ => some (some (natural n))
  | none, some n => some (some (negative n))
  | none, none =>
    if (naturalOf? (capacity 128 - 1) s).isSome || (negativeOf? (capacity 127) s).isSome then
      some none
    else none

/-- The value of a plain scalar without a tag. -/
def ofPlain? (s : String) : Option Held :=
  if s == "" || isNull s then some nothing
  else match boolOf? s, integerOf? s with
    | some b, _ => some (truth b)
    | none, some n => n
    | none, none =>
      if !hasLeadingZero (dropSign s.toList) && isFractional s then some fraction
      else some (text s)

/-- The value of a scalar. -/
def ofScalar? (tag : Option Tag) (style : Style) (s : String) : Option Held :=
  match tag with
  | none => if style = .plain then ofPlain? s else some (text s)
  | some t =>
    if t.localName?.isSome then none
    else if t = .bool then (boolOf? s).map truth
    else if t = .int then (integerOf? s).join
    else if t = .float then if isFractional s then some fraction else none
    else if t = .null then if isNull s then some nothing else none
    else if t.isLocal && style = .plain then ofPlain? s
    else some (text s)

/-- A natural number; `-0` is one. -/
def natural? : Held → Option Nat
  | natural n => some n
  | negative n => if n = 0 then some 0 else none
  | _ => none

/-- Whether a value says nothing. -/
def isEmpty : Held → Bool
  | nothing | record [] => true
  | _ => false

/-- One of some constants, by its name or its place among them. -/
def place? (names : List String) : Held → Option Nat
  | text s => names.idxOf? s
  | natural n => if n < names.length then some n else none
  | _ => none

/-- A constant by its place among the names of all: its name, or a record with the name or the
place as its only key and nothing under it. -/
def constant? (names : List String) : Held → Option Nat
  | text s => names.idxOf? s
  | record [(key, value)] => if value.isEmpty then key.place? names else none
  | _ => none

end Held

/-- Whether a collection with a tag can be held. -/
def canHold (tag : Option Tag) : Bool := (tag.bind Tag.localName?).isNone

namespace Node

/-- The value of a node by itself. Collections may be nested `depth` deep. -/
def held : (depth : Nat) → Node → Decoder Held
  | 0, n => do
    match ← n.target with
    | scalar tag style s => .ofOption (Held.ofScalar? tag style s)
    | _ => .fail
  | depth + 1, n => do
    match ← n.target with
    | scalar tag style s => .ofOption (Held.ofScalar? tag style s)
    | sequence tag ns => if canHold tag then .list <$> ns.mapM (held depth) else .fail
    | mapping tag es =>
      if canHold tag then
        .record <$> es.mapM fun e => do pure (← held depth e.1, ← held depth e.2)
      else .fail
    | reference _ => .fail

end Node

/-- How deep a document's collections are read. -/
def depthLimit : Nat := 128

end Stencil.Yaml
