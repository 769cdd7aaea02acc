import Stencil.Schema.Memo

/-!
# What the memo answers

A memo keeps answers under the names of tables in upper case. Where the provider makes no difference
between names that differ in case only, as the schemas of this library do, a look-up by way of the
memo therefore gives what the provider itself gives (`Faithful.lookup`): which look-ups were made
before cannot be seen in it. Failures are compared as failures, since the error names the table in
the spelling in which it was asked for first. Whatever the provider is, an answer that is kept once
is kept for good (`lookup_keeps`) and given again (`lookup_of_kept`).
-/

namespace Stencil

/-! ## Providers that are blind to case -/

/-- The provider's own answer. -/
def Provider.answer (p : Provider) (table : String) (keysOnly : Bool) : Lookup :=
  if keysOnly then p.keyFields table else p.fields table

/-- A way to look up tables for which only the letters of the name count, not their case. -/
def CaseBlind (ask : String → Lookup) : Prop :=
  ∀ a b, Text.SameName a b → (ask a).toOption = (ask b).toOption

/-- A provider whose look-ups are blind to case. -/
structure Provider.CaseBlind (p : Provider) : Prop where
  fields : Stencil.CaseBlind p.fields
  keyFields : Stencil.CaseBlind p.keyFields

theorem Provider.absent_caseBlind : Provider.absent.CaseBlind := ⟨fun _ _ _ => rfl, fun _ _ _ => rfl⟩

namespace Schema

variable {s : Schema} {a b : String}

theorem find?_eq_of_sameName (h : Text.SameName a b) : s.find? a = s.find? b := by
  have hsame : (fun t : Table => decide (Text.SameName t.name a)) =
      fun t => decide (Text.SameName t.name b) := by
    funext t
    exact decide_eq_decide.2 ⟨fun ha => ha.trans h, fun hb => hb.trans h.symm⟩
  rw [find?, find?, hsame]

theorem toOption_fields (s : Schema) (name : String) :
    (s.fields name).toOption = (s.find? name).map (·.fields) := by
  rw [fields]
  cases s.find? name <;> rfl

theorem provider_caseBlind (s : Schema) : s.provider.CaseBlind := by
  have hfields : Stencil.CaseBlind s.fields := by
    intro a b h
    rw [toOption_fields, toOption_fields, find?_eq_of_sameName h]
  refine ⟨hfields, fun a b h => ?_⟩
  have hmap (x : Lookup) (f : List Field → List Field) :
      (x.map f).toOption = x.toOption.map f := by
    cases x <;> rfl
  show ((s.fields a).map _).toOption = ((s.fields b).map _).toOption
  rw [hmap, hmap, hfields a b h]

end Schema

/-! ## Memos that are faithful -/

namespace Memo

variable {p : Provider} {m : Memo} {d : Dict Lookup} {ask : String → Lookup} {table : String}

/-- Every answer kept is the one that is given, in whatever spelling the table is asked for. -/
def Holds (d : Dict Lookup) (ask : String → Lookup) : Prop :=
  ∀ table kept, d.find? (Text.upper table) = some kept → kept.toOption = (ask table).toOption

/-- What the memo keeps is what the provider answers. -/
structure Faithful (p : Provider) (m : Memo) : Prop where
  fields : Holds m.fields p.fields
  keyFields : Holds m.keyFields p.keyFields

theorem holds_empty (ask : String → Lookup) : Holds .empty ask := by
  intro table kept h
  cases h

theorem faithful_empty (p : Provider) : Faithful p .empty := ⟨holds_empty _, holds_empty _⟩

/-- Consulting gives what is given anyway, -/
theorem Holds.answer (h : Holds d ask) :
    (consult d (Text.upper table) (ask table)).1.toOption = (ask table).toOption := by
  rw [consult]
  split
  · next kept hkept => exact h table kept hkept
  · rfl

/-- and keeps what may be kept. -/
theorem Holds.consult (hask : CaseBlind ask) (h : Holds d ask) :
    Holds (consult d (Text.upper table) (ask table)).2 ask := by
  rw [Memo.consult]
  split
  · exact h
  · intro other kept hkept
    rw [Dict.find?_insert] at hkept
    split at hkept
    · next hname =>
      cases hkept
      exact hask table other hname.symm
    · exact h other kept hkept

/-- A faithful memo answers as the provider does and stays faithful. -/
theorem Faithful.lookup (hp : p.CaseBlind) (h : Faithful p m) (table : String) (keysOnly : Bool) :
    (m.lookup p table keysOnly).1.toOption = (p.answer table keysOnly).toOption ∧
      Faithful p (m.lookup p table keysOnly).2 := by
  cases keysOnly with
  | false => exact ⟨h.fields.answer, h.fields.consult hp.fields, h.keyFields⟩
  | true => exact ⟨h.keyFields.answer, h.fields, h.keyFields.consult hp.keyFields⟩

end Memo

/-! ## Entries that stay -/

namespace Memo

variable {p : Provider} {m : Memo} {d : Dict Lookup} {key table : String} {ask a : Lookup}

/-- The answers of one kind that are kept: those for all fields, or those for the key fields. -/
def kept (m : Memo) (keysOnly : Bool) : Dict Lookup := if keysOnly then m.keyFields else m.fields

theorem consult_keeps {key' : String} (h : d.find? key = some a) :
    (consult d key' ask).2.find? key = some a := by
  rw [consult]
  split
  · exact h
  · next hnone =>
    rw [Dict.find?_insert, if_neg fun heq => ?_]
    · exact h
    · rw [heq, hnone] at h
      cases h

theorem consult_kept : (consult d key ask).2.find? key = some (consult d key ask).1 := by
  cases hfound : d.find? key with
  | some kept => simp only [consult, hfound]
  | none => simp only [consult, hfound, Dict.find?_insert, if_true]

/-- An answer that is kept stays, whatever is looked up, -/
theorem lookup_keeps {kind : Bool} (h : (m.kept kind).find? key = some a) (keysOnly : Bool) :
    ((m.lookup p table keysOnly).2.kept kind).find? key = some a := by
  cases kind <;> cases keysOnly
  case false.false | true.true => exact consult_keeps h
  case false.true | true.false => exact h

/-- what is answered is kept, -/
theorem lookup_kept (keysOnly : Bool) :
    ((m.lookup p table keysOnly).2.kept keysOnly).find? (Text.upper table) =
      some (m.lookup p table keysOnly).1 := by
  cases keysOnly with
  | false => exact consult_kept
  | true => exact consult_kept

/-- and what is kept is answered. -/
theorem lookup_of_kept {keysOnly : Bool}
    (h : (m.kept keysOnly).find? (Text.upper table) = some a) :
    (m.lookup p table keysOnly).1 = a := by
  cases keysOnly with
  | false =>
    show (consult m.fields (Text.upper table) (p.fields table)).1 = a
    rw [consult, show m.fields.find? _ = some a from h]
  | true =>
    show (consult m.keyFields (Text.upper table) (p.keyFields table)).1 = a
    rw [consult, show m.keyFields.find? _ = some a from h]

end Memo

end Stencil
