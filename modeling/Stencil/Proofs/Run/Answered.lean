import Stencil.Proofs.Emit.Emitter
import Stencil.Proofs.Run.Alone
import Stencil.Proofs.Run.Conditional

/-!
# One answer for a table

A provider need not give the same answer twice: it may read a database that others change.
`stageAt` follows a run whose provider may be another one at every step. Such a run asks once for
the fields of a table all the same, since the memo keeps whatever was answered, a failure among
it, to the end of the run (`stageAt_keeps`). So all emitters that are called with one table bound
render one and the same list of fields, or none of them has any (`one_answer`).
-/

namespace Stencil

/-- Two bindings are of one table, and take its fields from the same place: from the schema, or the
same ones from a caller. The name may be spelled in another case, and the index be another one. -/
structure Binding.SameTable (b b' : Binding) : Prop where
  table : Text.SameName b.table b'.table
  fields : b.fields = b'.fields

namespace Binding.SameTable

variable {b b' b'' : Binding}

theorem refl (b : Binding) : b.SameTable b := ⟨.refl _, rfl⟩

theorem symm (h : b.SameTable b') : b'.SameTable b := ⟨h.table.symm, h.fields.symm⟩

theorem trans (h : b.SameTable b') (h' : b'.SameTable b'') : b.SameTable b'' :=
  ⟨h.table.trans h'.table, h.fields.trans h'.fields⟩

end Binding.SameTable

namespace Engine

variable {e : Engine} {answers : Nat → Provider} {g g' h : Stage} {r s : Run} {i j : Nat}

theorem Move.keeps {key : String} {a : Lookup} {kind : Bool} (hmove : Move e r s)
    (hr : (r.memo.kept kind).find? key = some a) : (s.memo.kept kind).find? key = some a := by
  cases hmove with
  | rest => exact hr
  | act i hi =>
    rw [apply_memo hi]
    exact hr
  | answered table keysOnly => exact Memo.lookup_keeps hr keysOnly
  | fallback table keysOnly => exact Memo.lookup_keeps hr keysOnly
  | enter | leave => exact hr

/-- A look-up for the bound table goes by way of the memo. -/
theorem tableFields_memo {b : Binding} (hbound : r.context.table = some b)
    (hfields : b.fields = none) (keysOnly : Bool) :
    (e.tableFields keysOnly r).2.memo = (r.memo.lookup e.schema b.table keysOnly).2 := by
  rw [tableFields, Effect.get_bind, hbound]
  obtain ⟨table, index, fields⟩ := b
  obtain rfl : fields = none := hfields
  simp only
  cases (r.memo.lookup e.schema table keysOnly).1 <;> rfl

/-! ## Runs with a provider that changes -/

/-- The engine over another provider. -/
def withSchema (e : Engine) (p : Provider) : Engine := { e with schema := p }

/-- The stage to which a run has come `i` steps behind the stage `g`, when the provider is
`answers k` at the step `k`. -/
def stageAt (e : Engine) (answers : Nat → Provider) (g : Stage) : (i : Nat) → Option Stage
  | 0 => some g
  | i + 1 => (stageAt e answers g i).bind (e.withSchema (answers i)).next

theorem stageAt_succ (hi : stageAt e answers g i = some h) :
    stageAt e answers g (i + 1) = (e.withSchema (answers i)).next h := by
  rw [stageAt, hi, Option.bind_some]

/-- With a provider that does not change, these are the stages of a run. -/
theorem goes_iff_stageAt : Goes e g h ↔ ∃ i, stageAt e (fun _ => e.schema) g i = some h := by
  constructor
  · intro hgoes
    induction hgoes with
    | refl => exact ⟨0, rfl⟩
    | tail _ hnext ih =>
      obtain ⟨i, hi⟩ := ih
      exact ⟨i + 1, (stageAt_succ hi).trans hnext⟩
  · rintro ⟨i, hi⟩
    induction i generalizing h with
    | zero =>
      cases hi
      exact .refl
    | succ i ih =>
      obtain ⟨k, hk, hnext⟩ := Option.bind_eq_some_iff.1 hi
      exact (ih hk).trans (.ofNext hnext)

/-- An answer that the memo has at one stage it has at every later one. -/
theorem stageAt_keeps {key : String} {a : Lookup} {kind : Bool} (hij : i ≤ j)
    (hi : stageAt e answers g i = some h) (hj : stageAt e answers g j = some g')
    (hkept : (h.run.memo.kept kind).find? key = some a) :
    (g'.run.memo.kept kind).find? key = some a := by
  induction hij generalizing g' with
  | refl =>
    cases hi.symm.trans hj
    exact hkept
  | step _ ih =>
    obtain ⟨k, hk, hnext⟩ := Option.bind_eq_some_iff.1 hj
    exact (next_move hnext).keeps (ih hk)

/-! ## Calls of emitters -/

/-- The run in which a trigger is called for a token: the context shows the token. -/
def showing (column : Nat) (t : Token) (max : Option Nat) (r : Run) : Run :=
  r.mapContext fun c => { c with token := some (String.ofList (t.sourceUpTo max)), column }

theorem showing_table (column : Nat) (t : Token) (max : Option Nat) (r : Run) :
    (showing column t max r).context.table = r.context.table := by
  rw [showing]
  exact Run.observe_mapContext (g := Context.table) (f := fun c => { c with
    token := some (String.ofList (t.sourceUpTo max)), column }) (fun _ => rfl) r

/-- The plan of a call: the emitter reads the context and looks up fields, and the token is hidden
when it has its value. -/
theorem tokenPlan_emitter (column : Nat) (t : Token) (m : Emitter)
    (rest : Option String → Plan Unit) : Rules.tokenPlan column t m.trigger >>= rest =
      .act (.showToken (String.ofList (t.sourceUpTo m.maxParams)) column) (.look fun v =>
        .fields (m.selection == .keys) fun fs =>
          .act .hideToken (rest (some
            (m.value v.context (t.paramsUpTo m.maxParams) (fs.bind m.selection.keep))))) := by
  rw [Rules.tokenPlan, m.resolve_eq]
  rfl

/-- The plan of a run whose first line begins with a token that has a trigger: the token is
resolved in the first pass. -/
theorem sessionPlan_token {u : Rules} {source : Source} {line : Line} {lines : List Line}
    {passes : Nat} {ps : List Piece} {t : Token} {trigger : Trigger}
    (hlines : source.lines = line :: lines) (hpasses : u.passes = passes + 1)
    (hcarries : carriesMacros line.text.toList = true)
    (hpieces : pieces line.text.toList = .token t :: ps) (hfound : u.find? t.name = some trigger) :
    ∃ rest, u.sessionPlan source =
      .act (.beginLine line.number) (.act .beginPass (Rules.tokenPlan 0 t trigger >>= rest)) := by
  have hperform {α : Type} (i : Instruction) (f : Unit → Plan α) :
      (Plan.perform i >>= f) = .act i (f ()) := rfl
  have hact {α β : Type} (i : Instruction) (p : Plan α) (f : α → Plan β) :
      (Plan.act i p >>= f) = .act i (p >>= f) := rfl
  simp only [Rules.sessionPlan, Rules.sourcePlan, hlines, Rules.linesPlan, Rules.linePlan,
    if_pos hcarries, hpasses, Rules.settlePlan, Rules.passPlan, hpieces, Rules.piecesPlan, hfound,
    Plan.bind_bind, hperform, hact]
  exact ⟨_, rfl⟩

/-- So its trigger is called at the second step. -/
theorem stageAt_token (e : Engine) (answers : Nat → Provider) (q : Request) {source : Source}
    (now : Moment) (sink : Sink) {line : Line} {lines : List Line} {ps : List Piece} {t : Token}
    {trigger : Trigger} (hlines : source.lines = line :: lines)
    (hcarries : carriesMacros line.text.toList = true)
    (hpieces : pieces line.text.toList = .token t :: ps)
    (hfound : e.registry.find? t.name = some trigger) :
    ∃ rest, stageAt e answers (e.start q source now sink) 2 =
      some ⟨counted (beginLine line.number (e.begin q now sink)),
        Rules.tokenPlan 0 t trigger >>= rest, []⟩ := by
  obtain ⟨passes, hpasses⟩ := passes_eq_succ e.limits
  obtain ⟨rest, hplan⟩ := sessionPlan_token (u := e.rules) hlines hpasses hcarries hpieces hfound
  refine ⟨rest, ?_⟩
  rw [start, hplan]
  rfl

/-- The step of a look-up. -/
theorem next_fields {keysOnly : Bool} {k : Option (List Field) → Plan Unit} {ws : List Waiting}
    {fs : Option (List Field)} (hfields : e.tableFields keysOnly r = (.ok fs, s)) :
    e.next ⟨r, .fields keysOnly k, ws⟩ = some ⟨s, k fs, ws⟩ := by
  simp only [next, hfields]

/-- A call takes four steps, the third of which is the look-up. -/
theorem stageAt_call {column : Nat} {t : Token} {m : Emitter} {rest : Option String → Plan Unit}
    (hi : stageAt e answers g i = some h)
    (hcall : h.plan = Rules.tokenPlan column t m.trigger >>= rest) :
    ∃ fs s, (e.withSchema (answers (i + 2))).tableFields (m.selection == .keys)
        (showing column t m.maxParams h.run) = (.ok fs, s) ∧
      (∃ p, stageAt e answers g (i + 2) = some ⟨showing column t m.maxParams h.run, p, h.waiting⟩) ∧
      (∃ p, stageAt e answers g (i + 3) = some ⟨s, p, h.waiting⟩) ∧
      ∃ s', stageAt e answers g (i + 4) = some ⟨s', rest (some
        (m.value (showing column t m.maxParams h.run).context (t.paramsUpTo m.maxParams)
          (fs.bind m.selection.keep))), h.waiting⟩ := by
  obtain ⟨r, p, ws⟩ := h
  rw [tokenPlan_emitter] at hcall
  obtain rfl : p = _ := hcall
  have hshown : stageAt e answers g (i + 1) = _ := stageAt_succ hi
  have hseen : stageAt e answers g (i + 2) = _ := stageAt_succ hshown
  have hlook : stageAt e answers g (i + 3) = _ := stageAt_succ hseen
  have hresult := tableFields_result (e.withSchema (answers (i + 2))) (m.selection == .keys)
    (showing column t m.maxParams r)
  rcases hfields : (e.withSchema (answers (i + 2))).tableFields (m.selection == .keys)
    (showing column t m.maxParams r) with ⟨err | fs, s⟩
  · rw [hfields] at hresult
    cases hresult
  · have hlooked : stageAt e answers g (i + 3) = some ⟨s, .act .hideToken (rest (some
        (m.value (showing column t m.maxParams r).context (t.paramsUpTo m.maxParams)
          (fs.bind m.selection.keep)))), ws⟩ := hlook.trans (next_fields hfields)
    exact ⟨fs, s, rfl, ⟨_, hseen⟩, ⟨_, hlooked⟩, _, stageAt_succ hlooked⟩

/-- At the step `i` of a run with a changing provider, when it has come to the stage `h`, an emitter
is called while the table `b` is bound; with its value the run goes on as `rest`. -/
structure CallAt (e : Engine) (answers : Nat → Provider) (g : Stage) (b : Binding) (i : Nat)
    (h : Stage) (column : Nat) (t : Token) (m : Emitter) (rest : Option String → Plan Unit) :
    Prop where
  stage : stageAt e answers g i = some h
  bound : h.run.context.table = some b
  call : h.plan = Rules.tokenPlan column t m.trigger >>= rest

/-- The fields that are looked up in a call. -/
def lookedUp (answers : Nat → Provider) (b : Binding) (keysOnly : Bool) (i : Nat) (h : Stage) :
    Option (List Field) :=
  match b.fields with
  | some fs => some (if keysOnly then fs.filter (·.isKey) else fs)
  | none => (h.run.memo.lookup (answers (i + 2)) b.table keysOnly).1.toOption

section

variable {b b' : Binding} {column column' : Nat} {t t' : Token} {m m' : Emitter}
  {rest rest' : Option String → Plan Unit}

theorem CallAt.tableFields (hcall : CallAt e answers g b i h column t m rest) :
    ((e.withSchema (answers (i + 2))).tableFields (m.selection == .keys)
      (showing column t m.maxParams h.run)).1 =
        .ok (lookedUp answers b (m.selection == .keys) i h) := by
  have htable : (showing column t m.maxParams h.run).context.table = some b :=
    (showing_table column t m.maxParams h.run).trans hcall.bound
  rw [tableFields_result, htable]
  obtain ⟨table, index, fields⟩ := b
  cases fields <;> rfl

/-- The value of a call is that for the fields looked up. -/
theorem CallAt.returns (hcall : CallAt e answers g b i h column t m rest) :
    ∃ s, stageAt e answers g (i + 4) = some ⟨s, rest (some
      (m.value (showing column t m.maxParams h.run).context (t.paramsUpTo m.maxParams)
        ((lookedUp answers b (m.selection == .keys) i h).bind m.selection.keep))), h.waiting⟩ := by
  obtain ⟨fs, s, hlook, -, -, hdone⟩ := stageAt_call hcall.stage hcall.call
  have hfields := hcall.tableFields
  rw [hlook] at hfields
  cases hfields
  exact hdone

/-- A later call, for the same table, has the answer of an earlier one. -/
theorem CallAt.agree_of_lt (hcall : CallAt e answers g b i h column t m rest)
    (hcall' : CallAt e answers g b' j g' column' t' m' rest') (hsame : b.SameTable b')
    (hselection : m.selection = m'.selection) (hij : i < j) :
    lookedUp answers b (m.selection == .keys) i h =
      lookedUp answers b' (m'.selection == .keys) j g' := by
  rw [← hselection]
  cases hfields : b.fields with
  | some fs => simp only [lookedUp, ← hsame.fields, hfields]
  | none =>
    obtain ⟨fs, s, hlook, -, ⟨p, hlooked⟩, -⟩ := stageAt_call hcall.stage hcall.call
    obtain ⟨-, -, -, ⟨p', hseen⟩, -, -⟩ := stageAt_call hcall'.stage hcall'.call
    have hbound : (showing column t m.maxParams h.run).context.table = some b :=
      (showing_table column t m.maxParams h.run).trans hcall.bound
    have hmemo := tableFields_memo (e := e.withSchema (answers (i + 2))) hbound hfields
      (m.selection == .keys)
    have hkey : Text.upper b.table = Text.upper b'.table := hsame.table
    -- what the earlier call was answered is in the memo from its third step on
    have hkept : (s.memo.kept (m.selection == .keys)).find? (Text.upper b'.table) =
        some (h.run.memo.lookup (answers (i + 2)) b.table (m.selection == .keys)).1 := by
      rw [show s = _ from (congrArg Prod.snd hlook).symm, ← hkey]
      exact hmemo ▸ Memo.lookup_kept _
    have hlater := stageAt_keeps (Nat.succ_le_succ (Nat.succ_le_succ hij)) hlooked hseen hkept
    have hlater : (g'.run.memo.kept (m.selection == .keys)).find? (Text.upper b'.table) = _ :=
      hlater
    simp only [lookedUp, ← hsame.fields, hfields, Memo.lookup_of_kept hlater]

theorem CallAt.agree (hcall : CallAt e answers g b i h column t m rest)
    (hcall' : CallAt e answers g b' j g' column' t' m' rest') (hsame : b.SameTable b')
    (hselection : m.selection = m'.selection) :
    lookedUp answers b (m.selection == .keys) i h =
      lookedUp answers b' (m'.selection == .keys) j g' := by
  rcases Nat.lt_trichotomy i j with hij | rfl | hji
  · exact hcall.agree_of_lt hcall' hsame hselection hij
  · cases hcall.stage.symm.trans hcall'.stage
    cases hcall.bound.symm.trans hcall'.bound
    rw [hselection]
  · exact (hcall'.agree_of_lt hcall hsame.symm hselection.symm hji).symm

end

/-- What a selection keeps is not nothing. -/
theorem ne_nil_of_keep {selection : Selection} {all fs : List Field}
    (hkeep : selection.keep all = some fs) : fs ≠ [] := by
  simp only [Selection.keep, Option.ite_none_left_eq_some, List.isEmpty_iff] at hkeep
  exact Option.some.inj hkeep.2 ▸ hkeep.1

/-- Wherever an emitter is called while the table of `b` is bound, the run goes on with its value
for `answer`. -/
def Answered (e : Engine) (answers : Nat → Provider) (g : Stage) (b : Binding) (m : Emitter)
    (answer : Option (List Field)) : Prop :=
  ∀ b', b.SameTable b' → ∀ i h column t rest, CallAt e answers g b' i h column t m rest →
    ∃ s, stageAt e answers g (i + 4) = some ⟨s, rest (some
      (m.value (showing column t m.maxParams h.run).context (t.paramsUpTo m.maxParams) answer)),
      h.waiting⟩

/-- All calls of emitters with one selection, while one table is bound, have one answer: the same
fields, of which there is one at least, or none. -/
theorem one_answer (e : Engine) (answers : Nat → Provider) (g : Stage) (b : Binding)
    (selection : Selection) :
    ∃ answer : Option (List Field), (∀ fs, answer = some fs → fs ≠ []) ∧
      ∀ m, m.selection = selection → Answered e answers g b m answer := by
  by_cases hcalled : ∃ b' m, b.SameTable b' ∧ m.selection = selection ∧
      ∃ i h column t rest, CallAt e answers g b' i h column t m rest
  · obtain ⟨b', m, hsame, rfl, i, h, column, t, rest, hcall⟩ := hcalled
    refine ⟨(lookedUp answers b' (m.selection == .keys) i h).bind m.selection.keep,
      fun fs hfs => ?_, fun m' hselection b'' hsame' j h' column' t' rest' hcall' => ?_⟩
    · obtain ⟨all, -, hkeep⟩ := Option.bind_eq_some_iff.1 hfs
      exact ne_nil_of_keep hkeep
    · rw [hcall.agree hcall' (hsame.symm.trans hsame') hselection.symm, ← hselection]
      exact hcall'.returns
  · exact ⟨none, nofun, fun m hselection b' hsame i h column t rest hcall =>
      absurd ⟨b', m, hsame, hselection, i, h, column, t, rest, hcall⟩ hcalled⟩

end Engine

end Stencil
