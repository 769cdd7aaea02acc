import Stencil.Proofs.Emit.Declared
import Stencil.Proofs.Emit.Members
import Stencil.Proofs.Naming

/-!
# Distinct names in the generated source

The names that are declared for the columns of a table have to be told apart. In COBOL they always
are, when the columns are; in Java just if no two columns differ only in underscores that no letter
follows (`generated_names_distinct`).
-/

namespace Stencil

open Naming Text

variable {fs : List Field} {name : Field → String}

/-- The names of fields are distinct just if what is significant of the columns is, when they
agree for two fields just if this does. -/
theorem nodup_names_iff (hfs : fs.Nodup)
    (hname : ∀ f ∈ fs, ∀ g ∈ fs, name f = name g ↔ significant f.column = significant g.column) :
    (fs.map name).Nodup ↔ (fs.map fun f => significant f.column).Nodup := by
  rw [List.nodup_map_iff_inj_on hfs, List.nodup_map_iff_inj_on hfs]
  constructor
  · intro h f hf g hg heq
    exact h f hf g hg ((hname f hf g hg).2 heq)
  · intro h f hf g hg heq
    exact h f hf g hg ((hname f hf g hg).1 heq)

/-- The host variables of distinct columns have distinct names. -/
theorem nodup_cobolNames (hplain : ∀ f ∈ fs, f.declaredName = none)
    (hnames : ∀ f ∈ fs, IsColumnName f.column) (hdistinct : (fs.map Field.column).Nodup) :
    (fs.map Field.cobolName).Nodup := by
  have hfs : fs.Nodup := hdistinct.of_map
  have hname : ∀ f ∈ fs, f.cobolName = Naming.cobolName f.column := fun f hf => by
    rw [Field.cobolName, hplain f hf]
  rw [List.nodup_map_iff_inj_on hfs]
  intro f hf g hg heq
  rw [hname f hf, hname g hg] at heq
  exact (List.nodup_map_iff_inj_on hfs).1 hdistinct f hf g hg
    (cobolName_inj (hnames f hf).chars (hnames g hg).chars heq)

section

variable (hnames : ∀ f ∈ fs, IsColumnName f.column) (hfs : fs.Nodup)

include hnames hfs

theorem nodup_members_iff : (fs.map fun f => (Java.Property.ofField f).member).Nodup ↔
    (fs.map fun f => significant f.column).Nodup :=
  nodup_names_iff hfs fun f hf g hg => by
    rw [Java.Property.ofField_member, Java.Property.ofField_member]
    exact camelCase_eq_iff (hnames f hf) (hnames g hg)

/-- No getter is called like a setter, so that those of two fields collide just if their properties
do. -/
theorem nodup_accessors_iff : (fs.map (fun f => (Java.Property.ofField f).getter) ++
      fs.map fun f => (Java.Property.ofField f).setter).Nodup ↔
    (fs.map fun f => significant f.column).Nodup := by
  have hproperty (lead : String) : (fs.map fun f => lead ++ Java.property f).Nodup ↔
      (fs.map fun f => significant f.column).Nodup :=
    nodup_names_iff hfs fun f hf g hg => by
      rw [String.append_right_inj]
      exact pascalCase_eq_iff (hnames f hf) (hnames g hg)
  simp only [Java.Property.ofField_getter, Java.Property.ofField_setter]
  rw [List.nodup_append, hproperty, hproperty]
  refine ⟨fun h => h.1, fun h => ⟨h, h, fun a ha b hb heq => ?_⟩⟩
  obtain ⟨f, -, rfl⟩ := List.mem_map.1 ha
  obtain ⟨g, -, rfl⟩ := List.mem_map.1 hb
  have hhead := congrArg (fun s : String => s.toList.head?) heq
  simp [String.toList_append] at hhead

end

/-- **Distinct columns have distinct names.** Take fields without COBOL names of their own whose
columns are distinct names of capital letters, digits and underscores that start with a letter.
`HOSTVARS` declares distinct names for them. The members that `FIELDS` declares are distinct, and
so are all getters and setters of `ACCESSORS`, just if the columns can still be told apart without
the underscores that no letter follows. -/
theorem generated_names_distinct (c : Context) (ps : List String) (fs : List Field)
    (hplain : ∀ f ∈ fs, f.declaredName = none) (hnames : ∀ f ∈ fs, IsColumnName f.column)
    (hdistinct : (fs.map Field.column).Nodup) :
    Cobol.hostVars.value c ps (some fs) = "\n".intercalate
      ((Cobol.hostDeclarations (spaces c.column ++ Cobol.level ps ++ "  ") fs).map
        Cobol.Declaration.line) ∧
    (∀ lead, ((Cobol.hostDeclarations lead fs).map (·.name)).Nodup) ∧
    Java.MembersFit c ps fs ∧
    ((fs.map fun f => (Java.Property.ofField f).member).Nodup ↔
      (fs.map fun f => significant f.column).Nodup) ∧
    ((fs.map (fun f => (Java.Property.ofField f).getter) ++
        fs.map fun f => (Java.Property.ofField f).setter).Nodup ↔
      (fs.map fun f => significant f.column).Nodup) := by
  have hfs : fs.Nodup := hdistinct.of_map
  refine ⟨Cobol.hostVars_value c ps fs, fun lead => ?_, Java.membersFit c ps fs,
    nodup_members_iff hnames hfs, nodup_accessors_iff hnames hfs⟩
  rw [(Cobol.hostDeclarations_linedUp lead fs).names]
  exact nodup_cobolNames hplain hnames hdistinct

/-- A column and another one whose name has an underscore less, which no letter follows. -/
def addressFields : List Field := [{ column := "ADDR_1" }, { column := "ADDR1" }]

/-- They have different host variables, but one member. -/
theorem addressMembers_collide :
    (∀ f ∈ addressFields, f.declaredName = none) ∧ (∀ f ∈ addressFields, IsColumnName f.column) ∧
    (addressFields.map Field.column).Nodup ∧
    ¬ (addressFields.map fun f => (Java.Property.ofField f).member).Nodup ∧
    Java.unsupplied.preview { Cobol.unsuppliedRequest with tableFields := some addressFields }
      "&FIELDS|\n" ⟨0⟩ = .ok ["private String addr1;", "private String addr1;"] :=
  ⟨by decide, by decide, by decide, by decide +kernel,
    Effect.eq_ok_of_toOption (by decide +kernel)⟩

/-- Columns whose names have an underscore in front of a letter only. -/
def rateFields : List Field :=
  [{ column := "RATE_ID" }, { column := "RATE_CD2" }, { column := "RATEID" }]

/-- All their names are distinct. -/
theorem rateNames_distinct :
    (∀ f ∈ rateFields, f.declaredName = none) ∧ (∀ f ∈ rateFields, IsColumnName f.column) ∧
    (rateFields.map Field.column).Nodup ∧
    ((Cobol.hostDeclarations "05  " rateFields).map (·.name)).Nodup ∧
    (rateFields.map fun f => (Java.Property.ofField f).member).Nodup ∧
    (rateFields.map (fun f => (Java.Property.ofField f).getter) ++
      rateFields.map fun f => (Java.Property.ofField f).setter).Nodup := by
  have hplain : ∀ f ∈ rateFields, f.declaredName = none := by decide
  have hnames : ∀ f ∈ rateFields, IsColumnName f.column := by decide
  have hdistinct : (rateFields.map Field.column).Nodup := by decide
  have hsignificant : (rateFields.map fun f => significant f.column).Nodup := by decide +kernel
  obtain ⟨-, hhosts, -, hmembers, haccessors⟩ :=
    generated_names_distinct (Java.unsupplied.begin Cobol.unsuppliedRequest ⟨0⟩ {}).context []
      rateFields hplain hnames hdistinct
  exact ⟨hplain, hnames, hdistinct, hhosts "05  ", hmembers.2 hsignificant,
    haccessors.2 hsignificant⟩

end Stencil
