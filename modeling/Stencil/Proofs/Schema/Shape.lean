import Stencil.Backend
import Stencil.Proofs.Effect
import Stencil.Proofs.Token.Grammar
import Stencil.Run.Engine

/-!
# The shape of decimal numbers

The host variable of a decimal column is declared by a picture, and the column by a type. The
picture shows the digits in front of the assumed point and those behind it; the type gives all
digits and, again, those behind the point. `Picture.read?` and `Precision.read?` read them off the
two texts. Both have the same digits in all, but only the picture keeps the digits behind the
point to these: with more decimals than digits, the type has a scale beyond its precision
(`decimal_shapes_agree_iff`).
-/

namespace Stencil

/-! ## Reading pictures and column types -/

/-- The number in front of a mark, and what follows the mark. -/
def readNumber (mark : Char) (cs : List Char) : Option (Nat × List Char) :=
  match cs.takeWhile Char.isDigit, cs.dropWhile Char.isDigit with
  | d :: ds, c :: rest =>
    if c = mark then some (Nat.ofDigitChars 10 (d :: ds) 0, rest) else none
  | _, _ => none

/-- The size of the group of digits `9(n)` with which a text begins, if it does, and
what follows. -/
def readGroup (cs : List Char) : Option Nat × List Char :=
  match cs with
  | '9' :: '(' :: inner =>
    match readNumber ')' inner with
    | some (n, rest) => (some n, rest)
    | none => (none, cs)
  | _ => (none, cs)

/-- The groups of digits in the picture of a packed number, in front of the assumed point and behind
it. Either may be absent. -/
structure Picture where
  whole : Option Nat
  fraction : Option Nat
deriving DecidableEq, Repr

namespace Picture

/-- The picture that a clause gives, when it is one for a packed number. -/
def read? (clause : String) : Option Picture :=
  match clause.toList with
  | 'P' :: 'I' :: 'C' :: ' ' :: 'S' :: cs =>
    let (whole, cs) := readGroup cs
    let (fraction, cs) :=
      match cs with
      | 'V' :: cs => readGroup cs
      | cs => (none, cs)
    if cs = " COMP-3".toList then some ⟨whole, fraction⟩ else none
  | _ => none

/-- The number of digits in front of the point. -/
def wholeDigits (p : Picture) : Nat := p.whole.getD 0

/-- The number of digits behind the point. -/
def fractionDigits (p : Picture) : Nat := p.fraction.getD 0

end Picture

/-- The precision and the scale of a decimal column. -/
structure Precision where
  digits : Nat
  scale : Nat
deriving DecidableEq, Repr

/-- The precision that a column type gives, when it is a decimal one. -/
def Precision.read? (type : String) : Option Precision :=
  match type.toList with
  | 'D' :: 'E' :: 'C' :: 'I' :: 'M' :: 'A' :: 'L' :: '(' :: cs => do
    let (digits, cs) ← readNumber ',' cs
    let (scale, cs) ← readNumber ')' cs
    if cs = [] then some ⟨digits, scale⟩ else none
  | _ => none

/-! ## Reading what is written -/

/-- A number is read back. -/
theorem readNumber_repr {mark : Char} (hmark : mark.isDigit = false) (n : Nat) (rest : List Char) :
    readNumber mark ((toString n).toList ++ mark :: rest) = some (n, rest) := by
  have hdigits : ∀ d ∈ Nat.toDigits 10 n, d.isDigit = true := fun d hd =>
    Nat.isDigit_of_mem_toDigits (by decide) (by decide) hd
  obtain ⟨htake, hdrop⟩ :
      (Nat.toDigits 10 n ++ mark :: rest).takeWhile Char.isDigit = Nat.toDigits 10 n ∧
        (Nat.toDigits 10 n ++ mark :: rest).dropWhile Char.isDigit = mark :: rest :=
    takeWhile_append_cons hdigits hmark
  obtain ⟨d, ds, hds⟩ := List.exists_cons_of_ne_nil (Nat.toDigits_ne_nil (n := n) (b := 10))
  rw [Nat.toString_eq_ofList_toDigits, String.toList_ofList, readNumber, htake, hdrop, hds]
  simp only [if_true]
  rw [← hds, Nat.ofDigitChars_ten_toDigits]

/-- So is a group of digits. -/
theorem readGroup_parens (n : Nat) (rest : List Char) :
    readGroup ('9' :: ((Field.parens n).toList ++ rest)) = (some n, rest) := by
  have htext : '9' :: ((Field.parens n).toList ++ rest) =
      '9' :: '(' :: ((toString n).toList ++ ')' :: rest) := by
    simp [Field.parens, String.toList_append]
  rw [htext, readGroup, readNumber_repr (by decide)]

/-- Of the picture of a packed number that has digits, the groups are read back: as many digits as
it is given in front of the point and behind it, and no group without any. -/
theorem read?_packedPicture (whole scale : Nat) (h : 0 < whole + scale) :
    ∃ p, Picture.read? (Field.packedPicture whole scale) = some p ∧ p.wholeDigits = whole ∧
      p.fractionDigits = scale ∧ p.whole ≠ some 0 ∧ p.fraction ≠ some 0 := by
  unfold Field.packedPicture
  by_cases hscale : scale = 0
  · have htext : ("PIC S9" ++ Field.parens whole ++ " COMP-3").toList =
        'P' :: 'I' :: 'C' :: ' ' :: 'S' :: '9' ::
          ((Field.parens whole).toList ++ " COMP-3".toList) := by
      simp [String.toList_append]
    refine ⟨⟨some whole, none⟩, ?_, rfl, hscale.symm, ?_, nofun⟩
    · rw [if_pos hscale, Picture.read?, htext]
      simp only [readGroup_parens]
      rfl
    · simp only [ne_eq, Option.some.injEq]
      omega
  rw [if_neg hscale]
  by_cases hwhole : whole = 0
  · have htext : ("PIC SV9" ++ Field.parens scale ++ " COMP-3").toList =
        'P' :: 'I' :: 'C' :: ' ' :: 'S' :: 'V' :: '9' ::
          ((Field.parens scale).toList ++ " COMP-3".toList) := by
      simp [String.toList_append]
    have hpoint : readGroup ('V' :: '9' :: ((Field.parens scale).toList ++ " COMP-3".toList)) =
        (none, 'V' :: '9' :: ((Field.parens scale).toList ++ " COMP-3".toList)) := rfl
    refine ⟨⟨none, some scale⟩, ?_, hwhole.symm, rfl, nofun, by simpa using hscale⟩
    rw [if_pos hwhole, Picture.read?, htext]
    simp only [hpoint, readGroup_parens]
    rfl
  · have htext : ("PIC S9" ++ Field.parens whole ++ "V9" ++ Field.parens scale ++
          " COMP-3").toList =
        'P' :: 'I' :: 'C' :: ' ' :: 'S' :: '9' :: ((Field.parens whole).toList ++
          'V' :: '9' :: ((Field.parens scale).toList ++ " COMP-3".toList)) := by
      simp [String.toList_append]
    refine ⟨⟨some whole, some scale⟩, ?_, rfl, rfl, by simpa using hwhole, by simpa using hscale⟩
    rw [if_neg hwhole, Picture.read?, htext]
    simp only [readGroup_parens]
    rfl

namespace Field

variable {f : Field}

/-- The type of a decimal column is read back. -/
theorem read?_sqlType (hf : f.type = .decimal) :
    Precision.read? f.sqlType = some ⟨f.digits, f.decimals⟩ := by
  have htext : f.sqlType.toList = 'D' :: 'E' :: 'C' :: 'I' :: 'M' :: 'A' :: 'L' :: '(' ::
      ((toString f.digits).toList ++ ',' :: ((toString f.decimals).toList ++ ')' :: [])) := by
    simp [sqlType, hf, String.toList_append]
  have hcomma : ','.isDigit = false := by decide
  have hclose : ')'.isDigit = false := by decide
  rw [Precision.read?, htext]
  simp only [readNumber_repr hcomma, Option.bind_eq_bind, Option.bind_some, readNumber_repr hclose,
    if_true]

theorem digits_pos (f : Field) : 1 ≤ f.digits := Nat.le_max_right f.length 1

/-- There are no more digits behind the point than there are in all. -/
theorem scale_le_digits (f : Field) : f.scale ≤ f.digits := Nat.min_le_right f.decimals f.digits

theorem scale_eq_decimals_iff : f.scale = f.decimals ↔ f.decimals ≤ f.digits := by
  rw [scale]
  omega

end Field

/-! ## The shapes of one field -/

/-- **Picture and column type of a decimal field.** Both can be read, whatever length and
decimals the field has. They give the same number of digits in all, of which there is one at
least. What is left of the digits in front of the point is found by a subtraction that does not
go below zero, and the picture has no group of no digits. The digits behind the point are the
scale of the column just if there are no more decimals than digits, and just then the scale is
within the precision. -/
theorem decimal_shapes_agree_iff (f : Field) (hf : f.type = .decimal) :
    ∃ p t, Picture.read? f.picture = some p ∧ Precision.read? f.sqlType = some t ∧
      p.wholeDigits + p.fractionDigits = t.digits ∧ 1 ≤ t.digits ∧ f.scale ≤ f.digits ∧
      p.whole ≠ some 0 ∧ p.fraction ≠ some 0 ∧
      (p.fractionDigits = t.scale ↔ f.decimals ≤ f.digits) ∧
      (t.scale ≤ t.digits ↔ f.decimals ≤ f.digits) := by
  have hdigits := f.digits_pos
  have hscale := f.scale_le_digits
  have hpicture : f.picture = Field.packedPicture (f.digits - f.scale) f.scale := by
    rw [Field.picture, hf]
  obtain ⟨p, hread, hwhole, hfraction, hfirst, hsecond⟩ :=
    read?_packedPicture (f.digits - f.scale) f.scale (by omega)
  refine ⟨p, ⟨f.digits, f.decimals⟩, hpicture ▸ hread, Field.read?_sqlType hf, ?_, hdigits, hscale,
    hfirst, hsecond, ?_, Iff.rfl⟩
  · rw [hwhole, hfraction]
    exact Nat.sub_add_cancel hscale
  · rw [hfraction]
    exact Field.scale_eq_decimals_iff

/-- A premium of eleven digits, two of them behind the point, has one shape. -/
theorem premium_shapes_agree :
    let f : Field := { column := "BASE_PREM", type := .decimal, length := 11, decimals := 2 }
    f.type = .decimal ∧ ∃ p t, Picture.read? f.picture = some p ∧
      Precision.read? f.sqlType = some t ∧ p.wholeDigits + p.fractionDigits = t.digits ∧
      p.fractionDigits = t.scale ∧ t.scale ≤ t.digits := by
  intro f
  obtain ⟨p, t, hpicture, htype, hsum, -, -, -, -, hfraction, hscale⟩ :=
    decimal_shapes_agree_iff f rfl
  exact ⟨rfl, p, t, hpicture, htype, hsum, hfraction.2 (by decide), hscale.2 (by decide)⟩

/-- A factor of four digits with six decimals. -/
def factorField : Field := { column := "FACTOR", type := .decimal, length := 4, decimals := 6 }

/-- A COBOL engine without a schema. -/
def declaring : Engine where
  registry := Backend.cobol.registry
  schema := .absent
  store t := .error (.templateNotFound t .notFound)
  limits := {}

/-- A request that gives the factor as the only field of a table. -/
def factorRequest : Request where
  template := "t"
  output := "o"
  insuranceLine := ""
  processType := ""
  table := some "RATE"
  tableFields := some [factorField]

/-- Its host variable has four digits behind the point, its column six of four. -/
theorem factor_shapes_differ :
    Picture.read? factorField.picture = some ⟨none, some 4⟩ ∧
    Precision.read? factorField.sqlType = some ⟨4, 6⟩ ∧
    declaring.preview factorRequest "&HOSTVARS|\n&DCLTAB|\n" ⟨0⟩ =
      .ok ["05  FACTOR  PIC SV9(4) COMP-3.", "EXEC SQL DECLARE RATE TABLE",
        "( FACTOR DECIMAL(4,6)", ") END-EXEC."] :=
  ⟨by decide +kernel, by decide +kernel, Effect.eq_ok_of_toOption (by decide +kernel)⟩

end Stencil
