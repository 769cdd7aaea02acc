import Mathlib.Data.List.Dedup
import Mathlib.Data.List.Forall2
import Stencil.Proofs.Dict
import Stencil.Proofs.Schema.Memo

/-!
# Sequences of look-ups

To say how often a provider is asked, asking has to be an effect: `lookupsBy` makes look-ups one
after the other in any monad, and with a provider that only answers each of them is the look-up of
the memo (`lookupBy_pure`). A recording provider shows what is asked for: the queries whose name and
kind the memo does not know at their turn (`lookupsBy_recorded`). So a name is asked for once for
each kind, and with providers that are blind to case nothing else of the memo can be seen
(`lookups_transparent`).
-/

namespace Stencil

open Text

/-- A look-up of the fields, or of the key fields, of a table. -/
structure Query where
  table : String
  keysOnly : Bool
deriving DecidableEq, Repr

/-- What counts in a look-up: the letters of the name, and the kind. -/
def Query.key (q : Query) : String × Bool := (upper q.table, q.keysOnly)

/-- The provider's own answer to a look-up. -/
def Provider.answerTo (p : Provider) (q : Query) : Lookup := p.answer q.table q.keysOnly

/-- The same answer, where a record is kept of what the provider is asked for. -/
def Provider.recorded (p : Provider) (q : Query) : StateM (List Query) Lookup := do
  modify (· ++ [q])
  pure (p.answerTo q)

namespace Memo

/-! ## Look-ups as effects -/

/-- The memo with other answers of one kind. -/
def keep (m : Memo) (keysOnly : Bool) (d : Dict Lookup) : Memo :=
  if keysOnly then { m with keyFields := d } else { m with fields := d }

section

variable {M : Type → Type} [Monad M]

/-- The answer under `key`, from the dictionary or else by asking, which may have effects. -/
def consultBy (d : Dict Lookup) (key : String) (ask : M Lookup) : M (Lookup × Dict Lookup) :=
  match d.find? key with
  | some a => pure (a, d)
  | none => do
    let a ← ask
    pure (a, d.insert key a)

/-- A look-up where it may have effects to ask the provider. -/
def lookupBy (ask : Query → M Lookup) (m : Memo) (q : Query) : M (Lookup × Memo) := do
  let r ← consultBy (m.kept q.keysOnly) (upper q.table) (ask q)
  pure (r.1, m.keep q.keysOnly r.2)

/-- Such look-ups one after the other. -/
def lookupsBy (ask : Query → M Lookup) (m : Memo) : List Query → M (List Lookup × Memo)
  | [] => pure ([], m)
  | q :: qs => do
    let r ← lookupBy ask m q
    let s ← lookupsBy ask r.2 qs
    pure (r.1 :: s.1, s.2)

end

/-- Look-ups one after the other: the answers, and the memo in the end. -/
def lookups (m : Memo) (p : Provider) : List Query → List Lookup × Memo
  | [] => ([], m)
  | q :: qs =>
    let r := m.lookup p q.table q.keysOnly
    let s := r.2.lookups p qs
    (r.1 :: s.1, s.2)

/-- An answer is kept under the name and for the kind. -/
def Knows (m : Memo) (k : String × Bool) : Prop := k.1 ∈ (m.kept k.2).keys

instance (m : Memo) (k : String × Bool) : Decidable (m.Knows k) :=
  inferInstanceAs (Decidable (_ ∈ _))

/-- Those of a number of look-ups for which the provider is asked. -/
def asked (m : Memo) (p : Provider) : List Query → List Query
  | [] => []
  | q :: qs =>
    (if m.Knows q.key then [] else [q]) ++ (m.lookup p q.table q.keysOnly).2.asked p qs

variable {p : Provider} {m m' : Memo} {k : String × Bool} {q : Query} {qs : List Query}
  {kind : Bool}

theorem kept_keep (m : Memo) (keysOnly : Bool) (d : Dict Lookup) (kind : Bool) :
    (m.keep keysOnly d).kept kind = if kind = keysOnly then d else m.kept kind := by
  cases kind <;> cases keysOnly <;> rfl

theorem lookup_eq (m : Memo) (p : Provider) (q : Query) :
    m.lookup p q.table q.keysOnly =
      ((consult (m.kept q.keysOnly) (upper q.table) (p.answerTo q)).1,
        m.keep q.keysOnly (consult (m.kept q.keysOnly) (upper q.table) (p.answerTo q)).2) := by
  obtain ⟨table, keysOnly⟩ := q
  cases keysOnly <;> rfl

theorem find?_isSome_iff : ((m.kept k.2).find? k.1).isSome ↔ m.Knows k := Dict.find?_isSome

/-- With a provider that only answers it is the look-up of the library. -/
theorem lookupBy_pure (m : Memo) (p : Provider) (q : Query) :
    lookupBy (M := Id) p.answerTo m q = m.lookup p q.table q.keysOnly := by
  rw [lookup_eq, lookupBy, consultBy, consult]
  cases (m.kept q.keysOnly).find? (upper q.table) <;> rfl

/-- A record changes nothing else. What is known is not asked for. -/
theorem lookupBy_recorded (m : Memo) (p : Provider) (q : Query) (record : List Query) :
    (lookupBy p.recorded m q).run record = (m.lookup p q.table q.keysOnly,
      record ++ if m.Knows q.key then [] else [q]) := by
  rw [lookup_eq, lookupBy, consultBy, consult]
  cases hkept : (m.kept q.keysOnly).find? (upper q.table) with
  | some a =>
    have hknows : m.Knows q.key := find?_isSome_iff.1 (Option.isSome_of_eq_some hkept)
    rw [if_pos hknows, List.append_nil]
    rfl
  | none =>
    have hnew : ¬ m.Knows q.key := fun h => by
      have hsome := find?_isSome_iff.2 h
      rw [Query.key, hkept] at hsome
      cases hsome
    rw [if_neg hnew]
    rfl

/-- The record of a run has what the memo does not know at its turn. -/
theorem lookupsBy_recorded (m : Memo) (p : Provider) (qs record : List Query) :
    (lookupsBy p.recorded m qs).run record = (m.lookups p qs, record ++ m.asked p qs) := by
  induction qs generalizing m record with
  | nil =>
    rw [asked, List.append_nil]
    rfl
  | cons q qs ih =>
    have hrun : (lookupsBy p.recorded m (q :: qs)).run record =
        let r := (lookupBy p.recorded m q).run record
        let s := (lookupsBy p.recorded r.1.2 qs).run r.2
        ((r.1.1 :: s.1.1, s.1.2), s.2) := rfl
    rw [hrun, lookupBy_recorded]
    dsimp only
    rw [ih, asked, List.append_assoc]
    rfl

/-! ## What the memo knows -/

theorem consult_keys (d : Dict Lookup) (key : String) (ask : Lookup) (x : String) :
    x ∈ (consult d key ask).2.keys ↔ x = key ∨ x ∈ d.keys := by
  rw [consult]
  split
  · next hkept =>
    have hknown : key ∈ d.keys := Dict.find?_isSome.1 (Option.isSome_of_eq_some hkept)
    exact ⟨.inr, fun h => h.elim (· ▸ hknown) id⟩
  · exact Dict.mem_keys_insert

theorem consult_ordered {d : Dict Lookup} (h : d.Ordered) (key : String) (ask : Lookup) :
    (consult d key ask).2.Ordered := by
  rw [consult]
  split
  · exact h
  · exact Dict.insert_ordered h

/-- A look-up makes its name known, and nothing else. -/
theorem knows_lookup (m : Memo) (p : Provider) (q : Query) (k : String × Bool) :
    (m.lookup p q.table q.keysOnly).2.Knows k ↔ k = q.key ∨ m.Knows k := by
  rw [lookup_eq, Knows, kept_keep]
  split
  · next hkind =>
    rw [consult_keys, Knows, hkind, Query.key, Prod.ext_iff]
    simp [hkind]
  · next hkind =>
    have hother : k ≠ q.key := fun h => hkind (congrArg Prod.snd h)
    simp [hother, Knows]

theorem knows_lookups (m : Memo) (p : Provider) (qs : List Query) (k : String × Bool) :
    (m.lookups p qs).2.Knows k ↔ k ∈ qs.map Query.key ∨ m.Knows k := by
  induction qs generalizing m with
  | nil => simp [lookups]
  | cons q qs ih =>
    rw [lookups, ih, knows_lookup, List.map_cons, List.mem_cons]
    tauto

theorem ordered_lookups (hm : (m.kept kind).Ordered) (p : Provider) (qs : List Query) :
    ((m.lookups p qs).2.kept kind).Ordered := by
  induction qs generalizing m with
  | nil => exact hm
  | cons q qs ih =>
    refine ih ?_
    rw [lookup_eq, kept_keep]
    split
    · next hkind => exact consult_ordered (hkind ▸ hm) _ _
    · exact hm

/-- What is asked for was not known, and is asked for once. -/
theorem asked_nodup (m : Memo) (p : Provider) (qs : List Query) :
    ((m.asked p qs).map Query.key).Nodup ∧ ∀ k ∈ (m.asked p qs).map Query.key, ¬ m.Knows k := by
  induction qs generalizing m with
  | nil => simp [asked]
  | cons q qs ih =>
    obtain ⟨hnodup, hnew⟩ := ih (m.lookup p q.table q.keysOnly).2
    simp only [knows_lookup, not_or] at hnew
    rw [asked]
    split
    · exact ⟨hnodup, fun k hk => (hnew k hk).2⟩
    · next hq =>
      rw [List.singleton_append, List.map_cons, List.nodup_cons, List.forall_mem_cons]
      exact ⟨⟨fun hmem => (hnew _ hmem).1 rfl, hnodup⟩, hq, fun k hk => (hnew k hk).2⟩

/-- Everything that was not known is asked for. -/
theorem asked_complete (m : Memo) (p : Provider) (hq : q ∈ qs) (hnew : ¬ m.Knows q.key) :
    q.key ∈ (m.asked p qs).map Query.key := by
  induction qs generalizing m with
  | nil => cases hq
  | cons q' qs ih =>
    rw [asked, List.map_append, List.mem_append]
    by_cases hkey : q.key = q'.key
    · rw [if_neg (hkey ▸ hnew)]
      exact .inl (by simp [hkey])
    · have hne : q ≠ q' := fun h => hkey (h ▸ rfl)
      refine .inr (ih _ ((List.mem_cons.1 hq).resolve_left hne) ?_)
      rw [knows_lookup, not_or]
      exact ⟨hkey, hnew⟩

theorem asked_sublist (m : Memo) (p : Provider) (qs : List Query) : (m.asked p qs).Sublist qs := by
  induction qs generalizing m with
  | nil => exact .slnil
  | cons q qs ih =>
    rw [asked]
    split
    · exact (ih _).cons q
    · exact (ih _).cons_cons q

/-! ## The two kinds apart -/

/-- A look-up changes what is kept of its kind, whatever is kept of the other one, -/
theorem kept_lookup_same (hkind : q.keysOnly = kind) (h : m.kept kind = m'.kept kind)
    (p : Provider) :
    (m.lookup p q.table q.keysOnly).2.kept kind = (m'.lookup p q.table q.keysOnly).2.kept kind := by
  rw [lookup_eq, lookup_eq, kept_keep, kept_keep, if_pos hkind.symm, if_pos hkind.symm, hkind, h]

/-- and leaves what is kept of the other one. -/
theorem kept_lookup_other (hkind : q.keysOnly ≠ kind) (m : Memo) (p : Provider) :
    (m.lookup p q.table q.keysOnly).2.kept kind = m.kept kind := by
  rw [lookup_eq, kept_keep, if_neg (Ne.symm hkind)]

/-- Of the look-ups of one kind the answers are what they are without the others, -/
theorem zip_lookups_filter (h : m.kept kind = m'.kept kind) (p : Provider) (qs : List Query) :
    (qs.zip (m.lookups p qs).1).filter (·.1.keysOnly == kind) =
      (qs.filter (·.keysOnly == kind)).zip
        (m'.lookups p (qs.filter (·.keysOnly == kind))).1 := by
  -- `m'` misses the look-ups of the other kind, and agrees with `m` in what is kept of this one
  induction qs generalizing m m' with
  | nil => rfl
  | cons q qs ih =>
    rw [lookups, List.zip_cons_cons]
    by_cases hkind : q.keysOnly = kind
    · have hanswer : (m.lookup p q.table q.keysOnly).1 = (m'.lookup p q.table q.keysOnly).1 := by
        rw [lookup_eq, lookup_eq, hkind, h]
      rw [List.filter_cons_of_pos (by simpa using hkind),
        List.filter_cons_of_pos (by simpa using hkind), lookups, List.zip_cons_cons,
        ih (kept_lookup_same hkind h p), hanswer]
    · rw [List.filter_cons_of_neg (by simpa using hkind),
        List.filter_cons_of_neg (by simpa using hkind), ih ((kept_lookup_other hkind m p).trans h)]

/-- and so is what is asked for. -/
theorem asked_filter (h : m.kept kind = m'.kept kind) (p : Provider) (qs : List Query) :
    (m.asked p qs).filter (·.keysOnly == kind) =
      m'.asked p (qs.filter (·.keysOnly == kind)) := by
  induction qs generalizing m m' with
  | nil => rfl
  | cons q qs ih =>
    rw [asked, List.filter_append]
    by_cases hkind : q.keysOnly = kind
    · have hknows : m.Knows q.key ↔ m'.Knows q.key := by
        rw [Knows, Knows, Query.key, hkind, h]
      rw [List.filter_cons_of_pos (by simpa using hkind), asked, ih (kept_lookup_same hkind h p)]
      by_cases hq : m.Knows q.key
      · rw [if_pos hq, if_pos (hknows.1 hq)]
        rfl
      · rw [if_neg hq, if_neg fun h => hq (hknows.2 h),
          List.filter_cons_of_pos (by simpa using hkind)]
        rfl
    · rw [List.filter_cons_of_neg (by simpa using hkind),
        ih ((kept_lookup_other hkind m p).trans h)]
      split
      · rfl
      · rw [List.filter_cons_of_neg (by simpa using hkind)]
        rfl

/-! ## Runs of look-ups -/

/-- The answers are the provider's own. -/
theorem lookups_answers (hp : p.CaseBlind) (hm : Faithful p m) (qs : List Query) :
    List.Forall₂ (fun q a => a.toOption = (p.answerTo q).toOption) qs (m.lookups p qs).1 := by
  induction qs generalizing m with
  | nil => exact .nil
  | cons q qs ih =>
    obtain ⟨hanswer, hrest⟩ := hm.lookup hp q.table q.keysOnly
    exact .cons hanswer (ih hrest)

/-- The size counts the names under which fields were looked up. -/
theorem size_lookups (p : Provider) (qs : List Query) :
    (empty.lookups p qs).2.size =
      ((qs.filter (!·.keysOnly)).map fun q => upper q.table).dedup.length := by
  have hempty : (empty.kept false).Ordered := List.Pairwise.nil
  have hordered : (empty.lookups p qs).2.fields.Ordered := ordered_lookups hempty p qs
  have hkeys : (empty.lookups p qs).2.fields.keys.Nodup :=
    hordered.imp fun hlt => String.ne_of_lt hlt
  have hmem (x : String) : x ∈ (empty.lookups p qs).2.fields.keys ↔
      x ∈ (qs.filter (!·.keysOnly)).map fun q => upper q.table := by
    have hknows : x ∈ (empty.lookups p qs).2.fields.keys ↔ _ :=
      knows_lookups empty p qs (x, false)
    have hnew : ¬ empty.Knows (x, false) := List.not_mem_nil
    rw [hknows, or_iff_left hnew, List.mem_map, List.mem_map]
    refine exists_congr fun q => ?_
    rw [List.mem_filter, Query.key, Prod.mk.injEq, Bool.not_eq_true']
    tauto
  rw [size, Dict.size, ← List.length_map (f := (·.1))]
  refine List.Perm.length_eq ((List.perm_ext_iff_of_nodup hkeys (List.nodup_dedup _)).2 fun x => ?_)
  rw [List.mem_dedup]
  exact hmem x

/-- **The memo is transparent** for a provider that is blind to case. Whatever is looked up, and
in whatever order and spelling, each answer is the provider's own. The provider is asked for every
name that is looked up, and once for each kind. The look-ups of one kind give the same answers, and
ask for the same, with the others between them or without. The size is the number of names that
fields were looked up under. -/
theorem lookups_transparent (p : Provider) (hp : p.CaseBlind) (qs : List Query) :
    ∃ answers m record,
      (lookupsBy p.recorded empty qs).run [] = ((answers, m), record) ∧
      empty.lookups p qs = (answers, m) ∧
      List.Forall₂ (fun q a => a.toOption = (p.answerTo q).toOption) qs answers ∧
      (record.Sublist qs ∧ (record.map Query.key).Nodup ∧
        ∀ q ∈ qs, q.key ∈ record.map Query.key) ∧
      (∀ kind, ∃ answers' m',
        (lookupsBy p.recorded empty (qs.filter (·.keysOnly == kind))).run [] =
          ((answers', m'), record.filter (·.keysOnly == kind)) ∧
        (qs.zip answers).filter (·.1.keysOnly == kind) =
          (qs.filter (·.keysOnly == kind)).zip answers') ∧
      m.size = ((qs.filter (!·.keysOnly)).map fun q => upper q.table).dedup.length := by
  have hnew (k : String × Bool) : ¬ empty.Knows k := by
    obtain ⟨name, kind⟩ := k
    cases kind <;> exact List.not_mem_nil
  refine ⟨(empty.lookups p qs).1, (empty.lookups p qs).2, empty.asked p qs,
    lookupsBy_recorded empty p qs [], rfl, lookups_answers hp (faithful_empty p) qs,
    ⟨asked_sublist _ p qs, (asked_nodup _ p qs).1,
      fun q hq => asked_complete _ p hq (hnew q.key)⟩, fun kind => ?_, size_lookups p qs⟩
  have hrun := lookupsBy_recorded empty p (qs.filter (·.keysOnly == kind)) []
  rw [List.nil_append, ← asked_filter rfl p qs] at hrun
  exact ⟨_, _, hrun, zip_lookups_filter rfl p qs⟩

/-- The look-ups of a table that is there and of one that is not, in several spellings. -/
def mixedQueries : List Query :=
  [⟨"rate", false⟩, ⟨"Rate", true⟩, ⟨"NOPE", false⟩, ⟨"RATE", false⟩, ⟨"nope", false⟩,
    ⟨"RATE", true⟩]

/-- The provider is asked three times, and two names of fields are looked up. -/
theorem mixedQueries_transparent :
    let p := (Schema.ofTables [⟨"Rate", 1, [{ column := "ID", isKey := true }]⟩]).provider
    p.CaseBlind ∧ ∃ answers m, (lookupsBy p.recorded empty mixedQueries).run [] =
        ((answers, m), [⟨"rate", false⟩, ⟨"Rate", true⟩, ⟨"NOPE", false⟩]) ∧
      List.Forall₂ (fun q a => a.toOption = (p.answerTo q).toOption) mixedQueries answers ∧
      m.size = 2 := by
  intro p
  have hp : p.CaseBlind := Schema.provider_caseBlind _
  obtain ⟨answers, m, record, hrun, -, hanswers, -, -, hsize⟩ :=
    lookups_transparent p hp mixedQueries
  have hrecord : record = [⟨"rate", false⟩, ⟨"Rate", true⟩, ⟨"NOPE", false⟩] := by
    have hsame := lookupsBy_recorded empty p mixedQueries []
    rw [hrun] at hsame
    have hrecord : record = empty.asked p mixedQueries := (congrArg Prod.snd hsame)
    rw [hrecord]
    decide +kernel
  have hcount : m.size = 2 := by
    rw [hsize]
    decide +kernel
  exact ⟨hp, answers, m, hrecord ▸ hrun, hanswers, hcount⟩

end Memo

end Stencil
