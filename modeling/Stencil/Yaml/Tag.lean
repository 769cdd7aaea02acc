import Stencil.Text.Utf8
import Stencil.Yaml.Scalar

/-!
# Tags

A tag says what kind of value a node is. Its name may be spelled with escapes, a percent sign and
two hexadecimal digits for every byte of a character; such a character has to begin and to go on
with the right kind of byte, but need not be one that text can hold. Names are therefore kept in
bytes. A name ends before its first zero byte.
-/

namespace Stencil.Yaml

/-- The name of a tag. -/
structure Tag where
  bytes : Text.Bytes
deriving DecidableEq, Repr

namespace Tag

/-- The tag with a text as its name. -/
def ofString (s : String) : Tag := ⟨Text.encode s⟩

/-- The tag of a kind of value that every document knows. -/
def core (kind : String) : Tag := ofString ("tag:yaml.org,2002:" ++ kind)

/-- The tag of integers. -/
def int : Tag := core "int"

/-- The tag of numbers with a fraction. -/
def float : Tag := core "float"

/-- The tag of truth values. -/
def bool : Tag := core "bool"

/-- The tag of nulls. -/
def null : Tag := core "null"

/-- The byte of an exclamation mark. -/
def mark : UInt8 := 0x21

/-- Whether a tag is local to the document. -/
def isLocal (t : Tag) : Bool := t.bytes.head? == some mark

/-- The name of a local tag behind its exclamation mark, when it is a text. -/
def localName? (t : Tag) : Option String :=
  if t.isLocal then Text.decodeStrict t.bytes.tail else none

end Tag

/-! ## Names in a document -/

/-- Whether a character belongs to the name of an anchor or to the handle of a tag. -/
def isNameChar (c : Char) : Bool := c.isAlphanum || c == '_' || c == '-'

/-- Whether a character may stand in the name of a tag. A name in angle brackets may hold
further ones. -/
def isTagChar (verbatim : Bool) (c : Char) : Bool :=
  isNameChar c ||
    [';', '/', '?', ':', '@', '&', '=', '+', '$', '.', '%', '!', '~', '*', '\'', '(', ')'].contains c
    || (verbatim && (c == ',' || c == '[' || c == ']'))

/-- The number of further bytes of an escaped character, by its first one. -/
def furtherBytes? (octet : Nat) : Option Nat :=
  if octet < 0x80 then some 0
  else if octet < 0xC0 then none
  else if octet < 0xE0 then some 1
  else if octet < 0xF0 then some 2
  else if octet < 0xF8 then some 3
  else none

/-- The number of bytes that have to follow an escaped byte, when so many were expected from it
on. -/
def bytesAfter? (expected octet : Nat) : Option Nat :=
  match expected with
  | 0 => furtherBytes? octet
  | n + 1 => if 0x80 ≤ octet && octet < 0xC0 then some n else none

/-- The name of a tag, all of it, and the glyphs behind it. `expected` further bytes of an
escaped character have to come first. -/
def tagBytes (verbatim : Bool) : (expected : Nat) → List Glyph → Option (Text.Bytes × List Glyph)
  | expected, [] => if expected = 0 then some ([], []) else none
  | expected, g :: gs =>
    if g.char = '%' then
      match gs with
      | h :: l :: rest => do
        let octet := (← hexValue h.char) * 16 + (← hexValue l.char)
        let (bytes, rest) ← tagBytes verbatim (← bytesAfter? expected octet) rest
        pure (octet.toUInt8 :: bytes, rest)
      | _ => none
    else if expected != 0 then none
    else if isTagChar verbatim g.char then do
      let (bytes, rest) ← tagBytes verbatim 0 gs
      pure (g.char.toNat.toUInt8 :: bytes, rest)
    else some ([], g :: gs)

/-- A name up to its first zero byte. -/
def beforeZero (bytes : Text.Bytes) : Text.Bytes := bytes.takeWhile (· != 0)

/-- The name of a tag, which has to be there, and the glyphs behind it. -/
def tagName? (verbatim : Bool) (gs : List Glyph) : Option (Text.Bytes × List Glyph) := do
  let (bytes, rest) ← tagBytes verbatim 0 gs
  if bytes.isEmpty then none
  pure (beforeZero bytes, rest)

end Stencil.Yaml
