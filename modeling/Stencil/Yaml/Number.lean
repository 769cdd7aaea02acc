import Stencil.Yaml.Scalar

/-!
# Spellings of nulls, truth values and numbers

An integer is written in base 10, without zeros in front, or in base 16, 8 or 2 behind `0x`, `0o`
or `0b`. A fraction has a point or a power of ten or neither, and is a number only as far as a
binary fraction of 64 bits can hold it.
-/

namespace Stencil.Yaml

/-- The spellings of a null. -/
def isNull (s : String) : Bool := s == "null" || s == "Null" || s == "NULL" || s == "~"

/-- The truth value of a spelling. -/
def boolOf? (s : String) : Option Bool :=
  if s == "true" || s == "True" || s == "TRUE" then some true
  else if s == "false" || s == "False" || s == "FALSE" then some false
  else none

/-- The number that digits of a base spell. -/
def digitsOf? (base : Nat) (cs : List Char) : Option Nat :=
  if cs.isEmpty then none
  else
    cs.foldlM (fun n c => do
      let d ← hexValue c
      if d < base then pure (n * base + d) else none) 0

/-- Whether digits begin with a zero that would make them an octal number elsewhere. -/
def hasLeadingZero : List Char → Bool
  | '0' :: c :: cs => (c :: cs).all Char.isDigit
  | _ => false

/-- The base of a spelling with its digits. -/
def basedDigits? (cs : List Char) : Option (Nat × List Char) :=
  match cs with
  | '0' :: 'x' :: ds => some (16, ds)
  | '0' :: 'o' :: ds => some (8, ds)
  | '0' :: 'b' :: ds => some (2, ds)
  | _ => none

/-- The number of a spelling without a sign, up to a largest one. -/
def magnitude? (largest : Nat) (cs : List Char) : Option Nat :=
  let fits (n : Option Nat) : Option Nat := n.filter (· ≤ largest)
  match basedDigits? cs with
  | some (base, ds) => fits (digitsOf? base ds)
  | none => if hasLeadingZero cs then none else fits (digitsOf? 10 cs)

/-- A spelling without a plus in front. -/
def dropPlus : List Char → List Char
  | '+' :: cs => cs
  | cs => cs

/-- The natural number of a spelling. -/
def naturalOf? (largest : Nat) (s : String) : Option Nat :=
  magnitude? largest (dropPlus s.toList)

/-- The negative number of a spelling, down to the negative of `largest`; `-0` is read as 0. -/
def negativeOf? (largest : Nat) (s : String) : Option Int :=
  match s.toList with
  | '-' :: cs => (magnitude? largest cs).map fun n => -(n : Int)
  | _ => none

/-- How many numbers there are of `bits` binary digits. -/
def capacity (bits : Nat) : Nat := Nat.pow 2 bits

/-- The largest unsigned number of 64 bits. -/
def maxWord : Nat := capacity 64 - 1

/-- The largest unsigned number of 32 bits. -/
def maxHalf : Nat := capacity 32 - 1

/-! ## Decimal fractions -/

/-- The leading decimal digits of a spelling, and the rest. -/
def spanDigits (cs : List Char) : List Char × List Char := cs.span Char.isDigit

/-- The power of ten of a spelling that begins with its mark, or zero for an empty one. -/
def powerOf? : List Char → Option Int
  | [] => some 0
  | c :: cs =>
    if c == 'e' || c == 'E' then
      match cs with
      | '-' :: ds => (digitsOf? 10 ds).map fun n => -(n : Int)
      | '+' :: ds => (digitsOf? 10 ds).map fun n => (n : Int)
      | ds => (digitsOf? 10 ds).map fun n => (n : Int)
    else none

/-- The digits behind a point in front of a spelling, and the rest. -/
def fractionOf : List Char → List Char × List Char
  | '.' :: cs => spanDigits cs
  | cs => ([], cs)

/-- The digits and the power of ten of an unsigned decimal fraction. -/
def decimalOf? (cs : List Char) : Option (List Char × Int) :=
  let whole := spanDigits cs
  let fraction := fractionOf whole.2
  let digits := whole.1 ++ fraction.1
  if digits.isEmpty then none
  else (powerOf? fraction.2).map fun e => (digits, e - fraction.1.length)

/-- The least natural number that is too large for a binary fraction of 64 bits. -/
def firstHuge : Nat := capacity 1024 - capacity 970

/-- Whether digits with a power of ten are a number below `firstHuge`. -/
def isMeasured (digits : List Char) (power : Int) : Bool :=
  let significant := digits.dropWhile (· == '0')
  let size := (significant.length : Int) + power
  let value := (digitsOf? 10 significant).getD 0
  if significant.isEmpty || size < 309 then true
  else if 309 < size then false
  else if 0 ≤ power then value * Nat.pow 10 power.toNat < firstHuge
  else value < firstHuge * Nat.pow 10 (-power).toNat

/-- A spelling without its sign. -/
def dropSign : List Char → List Char
  | '+' :: cs => cs
  | '-' :: cs => cs
  | cs => cs

/-- Whether a text is read as a number with a fraction or a power, or as an infinite one. -/
def isFractional (s : String) : Bool :=
  let bare := dropSign s.toList
  [".inf", ".Inf", ".INF"].any (·.toList == bare) ||
    s == ".nan" || s == ".NaN" || s == ".NAN" ||
    match decimalOf? bare with
    | some (digits, power) => isMeasured digits power
    | none => false

end Stencil.Yaml
