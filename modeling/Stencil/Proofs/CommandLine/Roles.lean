import Mathlib.Algebra.Ring.Parity
import Mathlib.Data.List.Chain
import Mathlib.Data.List.DropRight
import Stencil.CommandLine.Arguments

/-!
# The roles of arguments

A look-up takes the argument behind the first occurrence of its flag, a switch is searched for among
all arguments, and the scan for positional arguments passes over what stands behind a flag that
takes a value. Only the scan knows which arguments are values: where such flags stand one behind the
other, every second one is the value of the one in front of it. So it passes over an argument just
if an odd number of them stands directly in front of the argument (`Argument.skipped_iff`), and what
it passes over is the value that is looked up, or its flag has stood further in front already.
Conversely a value that is looked up may have a second role. `one_role_iff` says when none has.
-/

namespace Stencil.CommandLine

variable {args before rest : List String} {a flag switch v : String}

/-! ## Look-ups -/

/-- Behind what does not hold the flag, the look-up goes on. -/
theorem flagValue?_append (h : flag ∉ before) :
    flagValue? flag (before ++ rest) = flagValue? flag rest := by
  induction before with
  | nil => rfl
  | cons a before ih =>
    obtain ⟨ha, hbefore⟩ := not_or.1 (List.mem_cons.not.1 h)
    rw [List.cons_append, flagValue?, if_neg (Ne.symm ha), ih hbefore]

/-- The first occurrence of the flag ends the look-up. -/
theorem flagValue?_append_cons (h : flag ∉ before) :
    flagValue? flag (before ++ flag :: rest) = rest.head? := by
  rw [flagValue?_append h, flagValue?, if_pos rfl]

theorem flagValue?_singleton (flag a : String) : flagValue? flag [a] = none := ite_self none

/-- A look-up is answered just if something stands behind the first occurrence of the flag. -/
theorem flagValue?_eq_some_iff :
    flagValue? flag args = some v ↔
      ∃ before after, args = before ++ flag :: v :: after ∧ flag ∉ before := by
  constructor
  · intro h
    by_cases hmem : flag ∈ args
    · obtain ⟨before, rest, rfl, hbefore⟩ := List.eq_append_cons_of_mem hmem
      rw [flagValue?_append_cons hbefore] at h
      obtain ⟨after, rfl⟩ := List.head?_eq_some_iff.1 h
      exact ⟨before, after, rfl, hbefore⟩
    · rw [← List.append_nil args, flagValue?_append hmem] at h
      cases h
  · rintro ⟨before, after, rfl, hbefore⟩
    rw [flagValue?_append_cons hbefore]
    rfl

/-! ## The scan for positional arguments -/

theorem isDashed_of_mem_valueFlags (h : flag ∈ valueFlags) : isDashed flag = true := by
  have hall : ∀ f ∈ valueFlags, isDashed f = true := by decide +kernel
  exact hall flag h

/-- What the scan does with one argument. -/
theorem positional_cons (a : String) (rest : List String) :
    positional (a :: rest) =
      if a ∈ valueFlags then positional rest.tail
      else if isDashed a then positional rest
      else a :: positional rest := by
  cases rest with
  | nil =>
    by_cases hflag : a ∈ valueFlags <;> cases hdash : isDashed a <;>
      simp [positional, hflag, hdash]
  | cons b rest => simp only [positional, List.contains_iff_mem, List.tail_cons]

/-- The scan returns arguments without a dash, in their order. -/
theorem positional_sublist (args : List String) :
    (positional args).Sublist (args.filter fun a => !isDashed a) := by
  fun_induction positional args with
  | case1 => exact .slnil
  | case2 a h => exact List.nil_sublist _
  | case3 a h =>
    rw [List.filter_cons_of_pos (by simp_all)]
    exact (List.nil_sublist _).cons_cons a
  | case4 a b args h ih => exact ih.trans ((List.sublist_append_right [a, b] args).filter _)
  | case5 a b args h hdash ih => exact ih.trans ((List.sublist_cons_self a _).filter _)
  | case6 a b args h hdash ih =>
    rw [List.filter_cons_of_pos (by simp_all)]
    exact ih.cons_cons a

theorem of_mem_positional (h : a ∈ positional args) : a ∈ args ∧ isDashed a = false := by
  obtain ⟨hmem, hplain⟩ := List.mem_filter.1 ((positional_sublist args).mem h)
  exact ⟨hmem, by simpa using hplain⟩

/-- The number of flags that take a value and stand together at the end of a list. -/
def trailingFlags (args : List String) : Nat := (args.rtakeWhile (· ∈ valueFlags)).length

theorem trailingFlags_concat (args : List String) (a : String) :
    trailingFlags (args ++ [a]) = if a ∈ valueFlags then trailingFlags args + 1 else 0 := by
  rw [trailingFlags, List.rtakeWhile_concat]
  simp only [decide_eq_true_eq]
  split
  · rw [List.length_append, List.length_singleton, trailingFlags]
  · rfl

/-- Behind an odd number of flags stands at least one. -/
theorem exists_of_odd_trailingFlags (h : Odd (trailingFlags args)) :
    ∃ before, ∃ flag ∈ valueFlags, args = before ++ [flag] := by
  cases args using List.reverseRecOn with
  | nil => exact absurd h Nat.not_odd_zero
  | append_singleton before flag =>
    refine ⟨before, flag, ?_, rfl⟩
    by_contra hflag
    rw [trailingFlags_concat, if_neg hflag] at h
    exact Nat.not_odd_zero h

/-- What the scan does with a list: behind an odd number of flags it passes over one argument. -/
theorem positional_append (before rest : List String) :
    positional (before ++ rest) =
      positional before ++
        positional (if Odd (trailingFlags before) then rest.tail else rest) := by
  induction before using List.reverseRecOn generalizing rest with
  | nil => rfl
  | append_singleton before a ih =>
    rw [List.append_assoc, ih, ih [a], List.append_assoc, trailingFlags_concat]
    congr 1
    by_cases hodd : Odd (trailingFlags before)
    · -- `a` is passed over, and the scan goes on behind it even if it is a flag
      have hpast : ¬ Odd (if a ∈ valueFlags then trailingFlags before + 1 else 0) := by
        split <;> simp [Nat.odd_add_one, hodd]
      rw [if_pos hodd, if_pos hodd, if_neg hpast]
      rfl
    · rw [if_neg hodd, if_neg hodd, List.singleton_append, positional_cons, positional_cons]
      by_cases hflag : a ∈ valueFlags
      · rw [if_pos hflag, if_pos hflag, if_pos hflag, if_pos (Nat.odd_add_one.2 hodd)]
        rfl
      · rw [if_neg hflag, if_neg hflag, if_neg hflag, if_neg Nat.not_odd_zero]
        cases isDashed a with
        | true => rfl
        | false => rfl

/-! ## Arguments and their roles -/

/-- An argument at its place in a list. -/
structure Argument (args : List String) where
  before : List String
  text : String
  after : List String
  split : args = before ++ text :: after

namespace Argument

/-- The argument behind a flag. -/
def behind (before : List String) (flag v : String) (after : List String)
    (h : args = before ++ flag :: v :: after) : Argument args where
  before := before ++ [flag]
  text := v
  after
  split := by rw [h, List.append_assoc, List.singleton_append]

variable (x : Argument args)

theorem split_of_before (h : x.before = before ++ [flag]) :
    args = before ++ flag :: x.text :: x.after := by
  have hsplit := x.split
  rwa [h, List.append_assoc, List.singleton_append] at hsplit

/-- A look-up returns this argument: it is answered once this argument is there, and by it. -/
def ValueOf (flag : String) : Prop :=
  flagValue? flag x.before = none ∧ flagValue? flag (x.before ++ [x.text]) = some x.text

/-- A look-up takes this argument for its flag: it returns what stands behind, whatever it is. -/
def TakenFor (flag : String) : Prop :=
  ∀ rest, flagValue? flag (x.before ++ x.text :: rest) = rest.head?

/-- The search for a switch is satisfied with this argument alone. -/
def Honoured (switch : String) : Prop := hasFlag switch [x.text] = true

/-- The scan returns this argument between what it returns of the others. -/
def Positional : Prop := positional args = positional x.before ++ x.text :: positional x.after

/-- The scan passes over this argument, whatever stands in its place. -/
def Skipped : Prop :=
  ∀ a, positional (x.before ++ a :: x.after) = positional x.before ++ positional x.after

theorem valueOf_iff : x.ValueOf flag ↔ ∃ before, x.before = before ++ [flag] ∧ flag ∉ before := by
  constructor
  · rintro ⟨hnone, hsome⟩
    by_cases hmem : flag ∈ x.before
    · obtain ⟨before, rest, hsplit, hbefore⟩ := List.eq_append_cons_of_mem hmem
      rw [hsplit, flagValue?_append_cons hbefore, List.head?_eq_none_iff] at hnone
      rw [hnone] at hsplit
      exact ⟨before, hsplit, hbefore⟩
    · rw [flagValue?_append hmem, flagValue?_singleton] at hsome
      cases hsome
  · rintro ⟨before, hsplit, hbefore⟩
    constructor
    · rw [hsplit, flagValue?_append_cons hbefore, List.head?_nil]
    · rw [hsplit, List.append_assoc, List.singleton_append, flagValue?_append_cons hbefore,
        List.head?_cons]

theorem takenFor_iff : x.TakenFor flag ↔ x.text = flag ∧ flag ∉ x.before := by
  constructor
  · intro h
    have hmem : flag ∉ x.before := by
      intro hmem
      obtain ⟨before, rest, hsplit, hbefore⟩ := List.eq_append_cons_of_mem hmem
      have hnil := h []
      rw [hsplit, List.append_assoc, List.cons_append, flagValue?_append_cons hbefore] at hnil
      simp at hnil
    refine ⟨?_, hmem⟩
    by_contra hne
    have hone := h [""]
    rw [flagValue?_append hmem, flagValue?, if_neg hne, flagValue?_singleton] at hone
    cases hone
  · rintro ⟨rfl, hbefore⟩ rest
    exact flagValue?_append_cons hbefore

theorem honoured_iff : x.Honoured switch ↔ x.text = switch := by
  rw [Honoured, hasFlag, List.contains_iff_mem, List.mem_singleton, eq_comm]

theorem positional_split :
    positional args = positional x.before ++
      positional (if Odd (trailingFlags x.before) then x.after else x.text :: x.after) := by
  conv_lhs => rw [x.split, positional_append]
  rfl

theorem positional_iff :
    x.Positional ↔ Even (trailingFlags x.before) ∧ isDashed x.text = false := by
  rw [Positional, positional_split, List.append_cancel_left_eq, ← Nat.not_odd_iff_even]
  by_cases hodd : Odd (trailingFlags x.before)
  · rw [if_pos hodd]
    simp [hodd]
  · rw [if_neg hodd]
    constructor
    · intro h
      exact ⟨hodd, (of_mem_positional (h ▸ List.mem_cons_self)).2⟩
    · rintro ⟨-, hplain⟩
      rw [positional_cons, hplain, if_neg, if_neg Bool.false_ne_true]
      intro hflag
      rw [isDashed_of_mem_valueFlags hflag] at hplain
      cases hplain

theorem skipped_iff : x.Skipped ↔ Odd (trailingFlags x.before) := by
  constructor
  · intro h
    by_contra hodd
    have hplain := h ""
    rw [positional_append, if_neg hodd, List.append_cancel_left_eq, positional_cons,
      if_neg (by decide +kernel), if_neg (by decide)] at hplain
    exact List.cons_ne_self _ _ hplain
  · intro hodd a
    rw [positional_append, if_pos hodd, List.tail_cons]

end Argument

/-! ## What is answered -/

/-- What a look-up returns is an argument in the role of its value. -/
theorem flagValue?_eq_some_iff_valueOf :
    flagValue? flag args = some v ↔ ∃ x : Argument args, x.ValueOf flag ∧ x.text = v := by
  constructor
  · intro h
    obtain ⟨before, after, hsplit, hbefore⟩ := flagValue?_eq_some_iff.1 h
    let x := Argument.behind before flag v after hsplit
    exact ⟨x, x.valueOf_iff.2 ⟨before, rfl, hbefore⟩, rfl⟩
  · rintro ⟨x, hvalue, rfl⟩
    obtain ⟨before, hsplit, hbefore⟩ := x.valueOf_iff.1 hvalue
    exact flagValue?_eq_some_iff.2 ⟨before, x.after, x.split_of_before hsplit, hbefore⟩

/-- A switch is found just if an argument is honoured as that switch. -/
theorem hasFlag_iff_honoured :
    hasFlag switch args = true ↔ ∃ x : Argument args, x.Honoured switch := by
  rw [hasFlag, List.contains_iff_mem]
  constructor
  · intro h
    obtain ⟨before, after, hsplit⟩ := List.append_of_mem h
    let x : Argument args := ⟨before, switch, after, hsplit⟩
    exact ⟨x, x.honoured_iff.2 rfl⟩
  · rintro ⟨x, hhonoured⟩
    rw [x.split, ← x.honoured_iff.1 hhonoured]
    exact List.mem_append_right _ List.mem_cons_self

/-- What the scan returns are the arguments in a positional role. -/
theorem mem_positional_iff :
    a ∈ positional args ↔ ∃ x : Argument args, x.Positional ∧ x.text = a := by
  constructor
  · intro h
    induction args using List.reverseRecOn with
    | nil => cases h
    | append_singleton args b ih =>
      rw [positional_append, List.mem_append] at h
      rcases h with h | h
      · obtain ⟨x, hx, rfl⟩ := ih h
        let y : Argument (args ++ [b]) :=
          ⟨x.before, x.text, x.after ++ [b], by
            rw [← List.cons_append, ← List.append_assoc, ← x.split]⟩
        exact ⟨y, y.positional_iff.2 (x.positional_iff.1 hx), rfl⟩
      · by_cases hodd : Odd (trailingFlags args)
        · rw [if_pos hodd] at h
          cases h
        · rw [if_neg hodd] at h
          obtain ⟨hmem, hplain⟩ := of_mem_positional h
          obtain rfl : a = b := List.mem_singleton.1 hmem
          let x : Argument (args ++ [a]) := ⟨args, a, [], rfl⟩
          exact ⟨x, x.positional_iff.2 ⟨Nat.not_odd_iff_even.1 hodd, hplain⟩, rfl⟩
  · rintro ⟨x, hpositional, rfl⟩
    rw [hpositional]
    exact List.mem_append_right _ List.mem_cons_self

/-! ## One role -/

/-- An argument that the look-up of `flag` returns is neither positional nor one of the switches
that are asked for, nor is it taken for another flag. -/
structure Argument.OnlyValueOf (x : Argument args) (switches : List String) (flag : String) :
    Prop where
  not_positional : ¬ x.Positional
  not_honoured : ∀ switch ∈ switches, ¬ x.Honoured switch
  not_takenFor : ∀ other ∈ valueFlags, other ≠ flag → ¬ x.TakenFor other

/-- Every argument that is looked up as the value of a flag has this role only. -/
def OneRole (switches args : List String) : Prop :=
  ∀ x : Argument args, ∀ flag ∈ valueFlags, x.ValueOf flag → x.OnlyValueOf switches flag

/-- What stands behind the first occurrence of a flag, with `before` in front of the flag, can only
be its value: it is no switch and no flag that stands here for the first time, and where the scan
passes over the flag it is dashed. -/
structure Unmistakable (switches before : List String) (flag v : String) : Prop where
  not_switch : v ∉ switches
  not_first : v ∈ valueFlags → v ∈ before ++ [flag]
  not_plain : Odd (trailingFlags before) → isDashed v = true

theorem Argument.onlyValueOf_iff {x : Argument args} {switches : List String}
    (hflag : flag ∈ valueFlags) (hsplit : x.before = before ++ [flag]) :
    x.OnlyValueOf switches flag ↔ Unmistakable switches before flag x.text := by
  have hpositional : x.Positional ↔ Odd (trailingFlags before) ∧ isDashed x.text = false := by
    rw [x.positional_iff, hsplit, trailingFlags_concat, if_pos hflag, Nat.even_add_one,
      Nat.not_even_iff_odd]
  constructor
  · intro h
    refine ⟨fun hswitch => ?_, fun hfirst => ?_, fun hodd => ?_⟩
    · exact h.not_honoured _ hswitch (x.honoured_iff.2 rfl)
    · by_contra hnew
      have hother : x.text ≠ flag := fun heq => hnew (heq ▸ List.mem_concat_self)
      exact h.not_takenFor _ hfirst hother (x.takenFor_iff.2 ⟨rfl, hsplit ▸ hnew⟩)
    · rw [← Bool.not_eq_false]
      exact fun hplain => h.not_positional (hpositional.2 ⟨hodd, hplain⟩)
  · intro h
    refine ⟨fun hpos => ?_, fun switch hswitch hhonoured => ?_, fun other hother _ htaken => ?_⟩
    · obtain ⟨hodd, hplain⟩ := hpositional.1 hpos
      rw [h.not_plain hodd] at hplain
      cases hplain
    · exact h.not_switch (x.honoured_iff.1 hhonoured ▸ hswitch)
    · obtain ⟨rfl, hnew⟩ := x.takenFor_iff.1 htaken
      exact hnew (hsplit ▸ h.not_first hother)

/-- A list in which no flag that takes a value is directly followed by such a flag or a switch. -/
def PlainValues (switches args : List String) : Prop :=
  args.IsChain fun flag v => flag ∈ valueFlags → v ∉ valueFlags ∧ v ∉ switches

instance (switches args : List String) : Decidable (PlainValues switches args) :=
  inferInstanceAs (Decidable (List.IsChain _ _))

theorem PlainValues.unmistakable {switches after : List String} (h : PlainValues switches args)
    (hsplit : args = before ++ flag :: v :: after) (hflag : flag ∈ valueFlags) :
    Unmistakable switches before flag v := by
  rw [PlainValues, List.isChain_iff_forall_rel_of_append_cons_cons] at h
  obtain ⟨hv, hswitch⟩ := h hsplit hflag
  refine ⟨hswitch, fun hfirst => absurd hfirst hv, fun hodd => ?_⟩
  -- a flag in front of `flag` would have `flag` as its value
  obtain ⟨front, other, hother, rfl⟩ := exists_of_odd_trailingFlags hodd
  rw [List.append_assoc, List.singleton_append] at hsplit
  exact absurd hflag (h hsplit hother).1

theorem oneRole_iff_unmistakable {switches : List String} :
    OneRole switches args ↔
      ∀ before flag v after, args = before ++ flag :: v :: after → flag ∈ valueFlags →
        flag ∉ before → Unmistakable switches before flag v := by
  constructor
  · intro h before flag v after hsplit hflag hbefore
    let x := Argument.behind before flag v after hsplit
    have hvalue : x.ValueOf flag := x.valueOf_iff.2 ⟨before, rfl, hbefore⟩
    exact (x.onlyValueOf_iff hflag rfl).1 (h x flag hflag hvalue)
  · intro h x flag hflag hvalue
    obtain ⟨before, hsplit, hbefore⟩ := x.valueOf_iff.1 hvalue
    exact (x.onlyValueOf_iff hflag hsplit).2
      (h before flag x.text x.after (x.split_of_before hsplit) hflag hbefore)

/-- **When arguments have one role.** No argument that is looked up as a value has a second role
just if whatever stands behind the first occurrence of a flag can only be its value. So none has in
a list in which nothing directly behind a flag is itself a flag or a switch. And in any list, what
the scan passes over is the value that is looked up for the flag in front of it, or this flag has
stood further in front already. -/
theorem one_role_iff (switches args : List String) :
    (OneRole switches args ↔
      ∀ before flag v after, args = before ++ flag :: v :: after → flag ∈ valueFlags →
        flag ∉ before → Unmistakable switches before flag v) ∧
      (PlainValues switches args → OneRole switches args) ∧
      ∀ x : Argument args, x.Skipped → ∃ before, ∃ flag ∈ valueFlags,
        x.before = before ++ [flag] ∧
          (x.ValueOf flag ∧ flagValue? flag args = some x.text ∨ flag ∈ before) := by
  refine ⟨oneRole_iff_unmistakable, fun h => oneRole_iff_unmistakable.2 ?_, fun x hskipped => ?_⟩
  · intro before flag v after hsplit hflag _
    exact h.unmistakable hsplit hflag
  · obtain ⟨before, flag, hflag, hsplit⟩ := exists_of_odd_trailingFlags (x.skipped_iff.1 hskipped)
    refine ⟨before, flag, hflag, hsplit, ?_⟩
    by_cases hbefore : flag ∈ before
    · exact .inr hbefore
    · have hvalue : x.ValueOf flag := x.valueOf_iff.2 ⟨before, hsplit, hbefore⟩
      exact .inl ⟨hvalue, flagValue?_eq_some_iff_valueOf.2 ⟨x, hvalue, rfl⟩⟩

/-- The arguments of a usual call have one role each. -/
theorem usual_arguments_one_role :
    OneRole ["--force", "--json", "--sub"]
      ["rate.cbt", "--lob", "BOP", "out.cbl", "--json", "--table", "T"] :=
  (one_role_iff _ _).2.1 (by decide +kernel)

/-- A value may be honoured as a switch, and a flag that is a value may have a value itself, which
is positional. -/
theorem flagged_values_two_roles :
    let switched := ["rate.cbt", "out.cbl", "--lob", "--json", "--proc", "RATE"]
    let bound := ["--lob", "--table", "rate.cbt", "out.cbl", "--proc", "RATE"]
    (flagValue? "--lob" switched = some "--json" ∧ hasFlag "--json" switched = true ∧
        ¬ OneRole ["--json"] switched) ∧
      flagValue? "--lob" bound = some "--table" ∧ flagValue? "--table" bound = some "rate.cbt" ∧
        positional bound = ["rate.cbt", "out.cbl"] ∧ ¬ OneRole [] bound := by
  intro switched bound
  refine ⟨⟨by decide +kernel, by decide +kernel, fun h => ?_⟩,
    by decide +kernel, by decide +kernel, by decide +kernel, fun h => ?_⟩
  · let x : Argument switched := .behind ["rate.cbt", "out.cbl"] "--lob" "--json" _ rfl
    have hvalue : x.ValueOf "--lob" := x.valueOf_iff.2 ⟨_, rfl, by decide +kernel⟩
    have honly := h x "--lob" (by decide +kernel) hvalue
    exact honly.not_honoured "--json" List.mem_cons_self (x.honoured_iff.2 rfl)
  · let x : Argument bound := .behind ["--lob"] "--table" "rate.cbt" _ rfl
    have hvalue : x.ValueOf "--table" := x.valueOf_iff.2 ⟨_, rfl, by decide +kernel⟩
    have honly := h x "--table" (by decide +kernel) hvalue
    exact honly.not_positional (x.positional_iff.2 ⟨by decide +kernel, by decide +kernel⟩)

end Stencil.CommandLine
