/-!
# Blank characters and trimming

`isBlank` is the Unicode property `White_Space`. Trimming removes blank characters from the
ends of a text and from nowhere else.
-/

namespace Stencil.Text

/-- The Unicode property `White_Space`. -/
def isBlank (c : Char) : Bool :=
  (9 ≤ c.toNat && c.toNat ≤ 13) || c.toNat == 0x20 || c.toNat == 0x85 || c.toNat == 0xA0 ||
    c.toNat == 0x1680 || (0x2000 ≤ c.toNat && c.toNat ≤ 0x200A) || c.toNat == 0x2028 ||
    c.toNat == 0x2029 || c.toNat == 0x202F || c.toNat == 0x205F || c.toNat == 0x3000

/-- The characters of a text without the blank ones at its end. -/
def dropEndBlanks (cs : List Char) : List Char :=
  (cs.reverse.dropWhile isBlank).reverse

/-- The characters of a text without the blank ones at either end. -/
def dropBlanks (cs : List Char) : List Char :=
  dropEndBlanks (cs.dropWhile isBlank)

/-- A text without the blank characters at either end. -/
def trim (s : String) : String :=
  String.ofList (dropBlanks s.toList)

/-- A text without the blank characters at its end. -/
def trimEnd (s : String) : String :=
  String.ofList (dropEndBlanks s.toList)

/-- A run of `n` spaces. -/
def spaces (n : Nat) : String :=
  String.ofList (List.replicate n ' ')

/-- `s` followed by as many spaces as bring it to `width` characters; a longer text is kept
whole. -/
def padTo (width : Nat) (s : String) : String :=
  s ++ spaces (width - s.length)

@[simp]
theorem dropEndBlanks_nil : dropEndBlanks [] = [] := rfl

end Stencil.Text
