/-!
# Hexadecimal digits
-/

namespace Stencil.Text

/-- The digit of a number below sixteen, with small letters. -/
def lowerDigit (n : Nat) : Char := Char.ofNat (if n < 10 then 0x30 + n else 0x57 + n)

/-- The digit of a number below sixteen, with capital letters. -/
def upperDigit (n : Nat) : Char := Char.ofNat (if n < 10 then 0x30 + n else 0x37 + n)

end Stencil.Text
