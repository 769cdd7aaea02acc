import Stencil.Text.CasingTable

/-!
# Unicode upper and lower case

The full case mappings, where one character may become several (`ß` becomes `SS`). A capital
sigma becomes the final form of the small letter at the end of a word: after a cased letter
and not before one, with case-ignorable characters skipped on both sides.
-/

namespace Stencil.Text

/-- The image of a code point under the runs and the special mappings of a table. -/
def mapped (runs : List CaseRun) (specials : List (Nat × List Nat)) (n : Nat) : List Nat :=
  match specials.find? (fun e => e.1 == n) with
  | some e => e.2
  | none =>
    match runs.find? (fun r => r.covers n) with
    | some r => [(n + r.shift).toNat]
    | none => [n]

/-- The upper-case form of a character. -/
def upperChar (c : Char) : List Char :=
  if c.toNat < 128 then [c.toUpper]
  else (mapped upperRuns upperSpecials c.toNat).map Char.ofNat

/-- The lower-case form of a character that stands alone. -/
def lowerChar (c : Char) : List Char :=
  if c.toNat < 128 then [c.toLower]
  else (mapped lowerRuns lowerSpecials c.toNat).map Char.ofNat

/-- Whether a code point lies in one of the closed intervals. -/
def within (runs : List (Nat × Nat)) (c : Char) : Bool :=
  runs.any fun r => r.1 ≤ c.toNat && c.toNat ≤ r.2

/-- Whether the first character that is not case-ignorable is cased. -/
def meetsCased (cs : List Char) : Bool :=
  match cs.dropWhile (within caseIgnorableRuns) with
  | [] => false
  | c :: _ => within casedRuns c

/-- Lower case of the characters after `before`, which holds the earlier ones in reverse. -/
def lowerFrom (before : List Char) : List Char → List Char
  | [] => []
  | c :: cs =>
    (if c = 'Σ' then
      if meetsCased before && !meetsCased cs then ['ς'] else ['σ']
    else lowerChar c) ++ lowerFrom (c :: before) cs

/-- A text in upper case by the full Unicode mapping. -/
def fullUpper (s : String) : String :=
  String.ofList (s.toList.flatMap upperChar)

/-- A text in lower case by the full Unicode mapping. -/
def fullLower (s : String) : String :=
  String.ofList (lowerFrom [] s.toList)

end Stencil.Text
