import Stencil.Text.Blank

/-!
# Names compared without regard to ASCII case

`upper` changes the twenty-six ASCII letters and nothing else. Table names are compared by
`SameName`; trigger names and table names are stored under their upper-case form.
-/

namespace Stencil.Text

/-- A text with its ASCII letters in upper case. -/
def upper (s : String) : String :=
  String.ofList (s.toList.map Char.toUpper)

/-- Two names that differ at most in the case of ASCII letters. -/
def SameName (a b : String) : Prop :=
  upper a = upper b

instance (a b : String) : Decidable (SameName a b) :=
  inferInstanceAs (Decidable (upper a = upper b))

/-- The form under which a trigger is stored and looked up: trimmed and in upper case. -/
def triggerKey (name : String) : String :=
  upper (trim name)

@[simp]
theorem toList_upper (s : String) : (upper s).toList = s.toList.map Char.toUpper := by
  simp [upper]

theorem SameName.refl (a : String) : SameName a a := rfl

theorem SameName.symm {a b : String} (h : SameName a b) : SameName b a := Eq.symm h

theorem SameName.trans {a b c : String} (h : SameName a b) (h' : SameName b c) :
    SameName a c :=
  Eq.trans h h'

end Stencil.Text
