/-!
# UTF-8

Texts are stored as bytes. `decode` reads a byte list as a run of characters and of invalid
parts, each as long as possible; `decodeLossy` shows every invalid part as one U+FFFD, and
`decodeStrict` refuses a byte list that has one.
-/

namespace Stencil.Text

/-- The content of a file. -/
abbrev Bytes := List UInt8

/-- What is still missing of a character of which some bytes are read: the bounds of the next
byte, the number of bytes after that one, and the bits read so far. -/
structure Pending where
  low : UInt8
  high : UInt8
  more : Nat
  bits : Nat

namespace Utf8

/-- A byte at the start of a character: a character of its own, the first byte of a longer
one, or an invalid part. -/
def start (b : UInt8) : List (Option Char) × Option Pending :=
  if b < 0x80 then ([some (Char.ofNat b.toNat)], none)
  else if b < 0xC2 then ([none], none)
  else if b < 0xE0 then ([], some ⟨0x80, 0xBF, 0, b.toNat - 0xC0⟩)
  else if b == 0xE0 then ([], some ⟨0xA0, 0xBF, 1, 0⟩)
  else if b == 0xED then ([], some ⟨0x80, 0x9F, 1, 0xD⟩)
  else if b < 0xF0 then ([], some ⟨0x80, 0xBF, 1, b.toNat - 0xE0⟩)
  else if b == 0xF0 then ([], some ⟨0x90, 0xBF, 2, 0⟩)
  else if b < 0xF4 then ([], some ⟨0x80, 0xBF, 2, b.toNat - 0xF0⟩)
  else if b == 0xF4 then ([], some ⟨0x80, 0x8F, 2, 4⟩)
  else ([none], none)

/-- One byte further. A byte that cannot continue the character begun ends an invalid part and
is read again as the start of the next. -/
def step : Option Pending → UInt8 → List (Option Char) × Option Pending
  | none, b => start b
  | some p, b =>
    if p.low ≤ b ∧ b ≤ p.high then
      let bits := p.bits * 64 + (b.toNat - 0x80)
      match p.more with
      | 0 => ([some (Char.ofNat bits)], none)
      | more + 1 => ([], some ⟨0x80, 0xBF, more, bits⟩)
    else (none :: (start b).1, (start b).2)

/-- The characters and the invalid parts of a byte list that follows the pending bytes. -/
def decodeFrom : Option Pending → Bytes → List (Option Char)
  | none, [] => []
  | some _, [] => [none]
  | p, b :: bs => (step p b).1 ++ decodeFrom (step p b).2 bs

end Utf8

/-- The characters and, as `none`, the invalid parts of a byte list. -/
def decode (bs : Bytes) : List (Option Char) :=
  Utf8.decodeFrom none bs

/-- The text with one U+FFFD for every invalid part. -/
def decodeLossy (bs : Bytes) : String :=
  String.ofList ((decode bs).map (·.getD '\uFFFD'))

/-- The text, when no part is invalid. -/
def decodeStrict (bs : Bytes) : Option String :=
  ((decode bs).mapM id).map String.ofList

/-- The bytes of a text. -/
def encode (s : String) : Bytes :=
  s.toList.flatMap String.utf8EncodeChar

/-- The number of bytes of a character list. -/
def byteSize : List Char → Nat
  | [] => 0
  | c :: cs => c.utf8Size + byteSize cs

@[simp]
theorem byteSize_nil : byteSize [] = 0 := rfl

@[simp]
theorem byteSize_cons (c : Char) (cs : List Char) :
    byteSize (c :: cs) = c.utf8Size + byteSize cs := rfl

@[simp]
theorem byteSize_append (cs ds : List Char) :
    byteSize (cs ++ ds) = byteSize cs + byteSize ds := by
  induction cs with
  | nil => simp
  | cons c cs ih => simp [ih, Nat.add_assoc]

end Stencil.Text
