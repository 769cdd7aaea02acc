import Stencil.Proofs.Run.FixedPoint
import Stencil.Proofs.Run.Substituted
import Stencil.Proofs.Token.RoundTrip

/-!
# Chains of conditional directives

A directive swallows the rest of its line, further directives included, so each pass over a line that
is a chain of directives unfolds the first one: it leaves the others with the text behind them, or
nothing at all (`pass_directive`). How far the chain is unfolded is thus a matter of the passes that
are allowed (`conditional_chain`).
-/

namespace Stencil

/-- When a directive keeps its payload. -/
inductive Keeping where
  | onMatch
  | onMismatch
deriving DecidableEq, Repr

/-- A directive that can be written on a line. -/
structure Directive where
  marker : Char
  keeping : Keeping
  guard : List Char
  isMarker_marker : isMarker marker = true
  single : '\n' ∉ guard
  closable : guard.getLast? ≠ some '\\'

namespace Directive

/-- The name under which its trigger is found. -/
def letter (d : Directive) : Char :=
  match d.keeping with
  | .onMatch => '<'
  | .onMismatch => '!'

def trigger (d : Directive) : Trigger :=
  match d.keeping with
  | .onMatch => Shared.keepIf
  | .onMismatch => Shared.keepUnless

/-- The directive keeps its payload where this is the linkage text. -/
def Holds (linkage : String) (d : Directive) : Prop :=
  if d.keeping = .onMatch then String.ofList d.guard = linkage
  else String.ofList d.guard ≠ linkage

instance (linkage : String) (d : Directive) : Decidable (d.Holds linkage) :=
  inferInstanceAs (Decidable (if d.keeping = .onMatch then String.ofList d.guard = linkage
    else String.ofList d.guard ≠ linkage))

/-- Exactly one of two directives with one guard holds, if they differ in what they keep. -/
theorem holds_iff_not {d d' : Directive} (hmatch : d.keeping = .onMatch)
    (hmismatch : d'.keeping = .onMismatch) (hguard : d.guard = d'.guard) {L : String} :
    d.Holds L ↔ ¬ d'.Holds L := by
  simp [Holds, hmatch, hmismatch, hguard]

/-- The directive in front of its payload. -/
def text (d : Directive) (payload : List Char) : List Char :=
  directiveText d.marker d.letter d.guard payload

/-- The token that the text is. -/
def token (d : Directive) (payload : List Char) : Token :=
  ⟨d.marker, [d.letter], .directive d.guard payload⟩

/-- Directives one behind the other, and a text behind them. -/
def chain (ds : List Directive) (t : List Char) : List Char := ds.foldr text t

theorem chain_singleton (d : Directive) (t : List Char) : chain [d] t = d.text t := rfl

/-! ## What a directive is read as -/

variable (d : Directive) (payload : List Char)

theorem isDirectiveName_letter : d.letter = '<' ∨ d.letter = '!' := by
  unfold letter
  split
  · exact .inl rfl
  · exact .inr rfl

theorem carriesMacros_text : carriesMacros (d.text payload) = true :=
  carriesMacros_iff.2 ⟨[], d.marker, _, rfl, d.isMarker_marker, by simp⟩

/-- A directive is one token, whatever its payload. -/
theorem pieces_text : pieces (d.text payload) = [.token (d.token payload)] := by
  have hcall : IsDirectiveAt d.marker (d.letter :: '|' :: (escape d.guard ++ '|' :: payload)) _ :=
    isDirectiveAt_mk d.isDirectiveName_letter (isBody_escape d.closable)
  rw [unescape_escape] at hcall
  have hread : readToken d.marker (d.letter :: '|' :: (escape d.guard ++ '|' :: payload)) =
      some (d.token payload, []) := by
    refine readToken_eq_some_iff.2 ⟨?_, .inl hcall⟩
    simp [token, Token.source, Token.head, Token.tail, Token.segment]
  rw [pieces, if_pos (d.carriesMacros_text payload), text, directiveText,
    scan_of_readToken d.isMarker_marker hread, scan]

/-- Both backends have the triggers of the directives. -/
theorem find?_trigger {e : Engine} (b : Backend) (hregistry : e.registry = b.registry) :
    e.registry.find? (d.token payload).name = some d.trigger := by
  rw [hregistry, Token.name, token, upper_directiveName d.isDirectiveName_letter, letter, trigger]
  cases d.keeping <;> cases b <;> rfl

/-- What the trigger does is to look at the linkage text. -/
theorem resolve_trigger : d.trigger.resolve (d.token payload).params = .context fun c =>
    .done (some (if d.Holds c.business.linkage then String.ofList payload else "")) := by
  obtain ⟨m, keeping, guard, hm, hsingle, hclosable⟩ := d
  cases keeping
  all_goals
    refine congrArg Action.context (funext fun c => ?_)
    by_cases hmatch : String.ofList guard = c.business.linkage <;>
      simp [Holds, hmatch, token, Token.params, pure, Action.bind]

end Directive

/-! ## Runs with passes made -/

/-- The context after a token at the beginning of a line. -/
def Context.unshown (c : Context) : Context := { c with token := none, column := 0 }

/-- Of a change of the current context only that shows what it changes. -/
theorem Run.observe_mapContext {γ : Type} {g : Context → γ} {f : Context → Context}
    (hf : ∀ c, g (f c) = g c) (r : Run) : g (r.mapContext f).context = g r.context := by
  by_cases hlive : r.current < r.arena.size
  · show g ((r.arena.modify r.current f).get r.current) = _
    rw [Arena.get_modify_self hlive]
    exact hf _
  · show g ((r.arena.modify r.current f).get r.current) = _
    rw [Arena.modify_of_size_le (Nat.le_of_not_lt hlive)]
    rfl

theorem Run.mapContext_mapContext (r : Run) (f g : Context → Context) :
    (r.mapContext f).mapContext g = r.mapContext (g ∘ f) := by
  have harena : (r.arena.modify r.current f).modify r.current g =
      r.arena.modify r.current (g ∘ f) := by
    apply Arena.ext_contexts
    rw [Arena.contexts_modify, Arena.contexts_modify, Arena.contexts_modify,
      List.modify_modify_eq]
  exact congrArg (fun arena => { r with arena }) harena

namespace Engine

/-- The run after passes over directives: the passes are counted, and the context shows no token any
more, but still the column of the last one. -/
def afterPasses (n : Nat) (r : Run) : Run :=
  (r.mapReport fun p => { p with passes := p.passes + n }).mapContext Context.unshown

theorem afterPasses_afterPasses (m n : Nat) (r : Run) :
    afterPasses n (afterPasses m r) = afterPasses (m + n) r := by
  show ((r.mapReport fun p => { p with passes := p.passes + m + n }).mapContext
    Context.unshown).mapContext Context.unshown = _
  rw [Run.mapContext_mapContext]
  simp only [afterPasses, Nat.add_assoc]
  rfl

/-- Nothing else shows of them. -/
theorem observe_afterPasses {γ : Type} {g : Context → γ}
    (hg : ∀ c, g c.unshown = g c) (n : Nat) (r : Run) :
    g (afterPasses n r).context = g r.context := Run.observe_mapContext hg _

theorem linkage_afterPasses (n : Nat) (r : Run) :
    (afterPasses n r).context.business.linkage = r.context.business.linkage :=
  observe_afterPasses (g := (·.business.linkage)) (fun _ => rfl) n r

theorem unresolved_afterPasses (n : Nat) (r : Run) (text : List Char) :
    (afterPasses n r).unresolved text = r.unresolved text :=
  observe_afterPasses (g := fun c => (⟨c.template, c.line, String.ofList text⟩ : Unresolved))
    (fun _ => rfl) n r

section

variable {b : Backend} {e : Engine} (hregistry : e.registry = b.registry)

/-- Resolving a directive at the beginning of a line leaves no trace but the column. -/
theorem resolveToken_directive (sub : Sub) (d : Directive) (payload : List Char) (r : Run) :
    resolveToken e sub 0 (d.token payload) d.trigger r =
      (.ok (some (if d.Holds r.context.business.linkage then String.ofList payload else "")),
        r.mapContext Context.unshown) := by
  have hparams : (d.token payload).paramsUpTo d.trigger.maxParams = (d.token payload).params := rfl
  have hshown := Run.observe_mapContext (g := (·.business.linkage))
    (f := fun c => { c with
      token := some (String.ofList ((d.token payload).sourceUpTo d.trigger.maxParams))
      column := 0 }) (fun _ => rfl) r
  rw [resolveToken, Effect.modify_bind, hparams, d.resolve_trigger, perform, Effect.bind_eq,
    Effect.get_bind, perform]
  simp only [hshown]
  exact congrArg (Prod.mk _) (Run.mapContext_mapContext r _ _)

include hregistry

/-- A pass over a directive leaves its payload, or nothing. -/
theorem pass_directive (sub : Sub) (d : Directive) (payload : List Char) (r : Run) :
    pass e sub (d.text payload) r =
      (.ok (.rewritten (if d.Holds r.context.business.linkage then payload else []) 1),
        afterPasses 1 r) := by
  have hkeeps : d.trigger.replacesLine = false := by
    unfold Directive.trigger
    split <;> rfl
  have hvalue : valueText (some (if d.Holds r.context.business.linkage
      then String.ofList payload else "")) =
      if d.Holds r.context.business.linkage then payload else [] := by
    rw [valueText, Option.getD_some]
    split
    · rw [String.toList_ofList]
    · rfl
  have hpass : pass e sub (d.text payload) r =
      resolvePieces e sub 0 [.token (d.token payload)] (counted r) := by
    rw [pass, Effect.modify_bind, d.pieces_text]
    rfl
  rw [hpass, resolvePieces, d.find?_trigger payload b hregistry]
  simp only [hkeeps, Bool.false_eq_true, if_false]
  rw [Effect.bind_eq, resolveToken_directive]
  show (Except.ok (Outcome.rewritten (valueText (some (if d.Holds r.context.business.linkage
    then String.ofList payload else "")) ++ [] ++ []) 1), afterPasses 1 r) = _
  rw [hvalue, List.append_nil, List.append_nil]

/-! ## Passes over a chain -/

variable {d : Directive} {ds : List Directive} {t : List Char} {left : Nat} {r : Run}

/-- The passes over a directive that does not hold leave nothing. -/
theorem settle_dropped (sub : Sub) (payload : List Char) (before : Bool)
    (hd : ¬ d.Holds r.context.business.linkage) :
    settle e sub (left + 1) (d.text payload) before r = (.ok (.text [] true), afterPasses 1 r) := by
  rw [settle, Effect.bind_eq, pass_directive hregistry, if_neg hd]
  rfl

/-- Behind a directive that holds, and that is the last, the text is left. -/
theorem settle_last (sub : Sub) (ht : MarkerFree t) (before : Bool)
    (hd : d.Holds r.context.business.linkage) :
    settle e sub (left + 1) (d.text t) before r = (.ok (.text t true), afterPasses 1 r) := by
  have hplain : carriesMacros t = false := by
    rw [Bool.eq_false_iff]
    intro hcarries
    obtain ⟨pre, m, rest, rfl, hm, -⟩ := carriesMacros_iff.1 hcarries
    rw [ht m (by simp)] at hm
    cases hm
  rw [settle, Effect.bind_eq, pass_directive hregistry, if_pos hd]
  simp only [hplain]
  rfl

/-- The passes over two directives or more, of which the first holds, go on with the others. -/
theorem settle_next (sub : Sub) (d' : Directive) (payload : List Char) (before : Bool)
    (hd : d.Holds r.context.business.linkage) :
    settle e sub (left + 2) (d.text (d'.text payload)) before r =
      settle e sub (left + 1) (d'.text payload) true (afterPasses 1 r) := by
  rw [settle, Effect.bind_eq, pass_directive hregistry, if_pos hd]
  simp only [d'.carriesMacros_text]
  rfl

/-- When the passes are used up by it, they are noted as a runaway. -/
theorem settle_usedUp (sub : Sub) (d' : Directive) (payload : List Char) (before : Bool)
    (hd : d.Holds r.context.business.linkage) :
    settle e sub 1 (d.text (d'.text payload)) before r =
      (.ok (.text (d'.text payload) true),
        (afterPasses 1 r).mapReport (·.noteRunaway (r.unresolved (d'.text payload)))) := by
  have hresolvable : e.resolvable (d'.text payload) = true := by
    rw [resolvable, d'.pieces_text]
    show (e.registry.contains (d'.token payload).name || false) = true
    rw [Registry.contains, d'.find?_trigger payload b hregistry]
    rfl
  rw [settle, Effect.bind_eq, pass_directive hregistry, if_pos hd]
  simp only [d'.carriesMacros_text, hresolvable]
  show (_, (afterPasses 1 r).mapReport (·.noteRunaway ((afterPasses 1 r).unresolved _))) = _
  rw [unresolved_afterPasses]

/-- When one of the directives for which there are passes does not hold, nothing is left. -/
theorem settle_chain_dropped (sub : Sub) (left : Nat) (r : Run) (before : Bool)
    (hdropped : ∃ d ∈ ds.take left, ¬ d.Holds r.context.business.linkage) :
    ∃ m, m ≤ left ∧ settle e sub left (Directive.chain ds t) before r =
      (.ok (.text [] true), afterPasses m r) := by
  induction ds generalizing left before r with
  | nil =>
    obtain ⟨d, hd, -⟩ := hdropped
    rw [List.take_nil] at hd
    cases hd
  | cons d ds ih =>
    obtain ⟨d', hmem, hd'⟩ := hdropped
    cases left with
    | zero => cases hmem
    | succ left =>
      rw [List.take_succ_cons] at hmem
      by_cases hd : d.Holds r.context.business.linkage
      · have hmem : d' ∈ ds.take left :=
          (List.mem_cons.1 hmem).resolve_left fun heq => hd' (heq ▸ hd)
        cases left with
        | zero => cases hmem
        | succ left =>
          cases ds with
          | nil => cases hmem
          | cons d₂ ds =>
            obtain ⟨m, hm, hrest⟩ := ih (left + 1) (afterPasses 1 r) true
              ⟨d', hmem, by rwa [linkage_afterPasses]⟩
            rw [afterPasses_afterPasses] at hrest
            exact ⟨1 + m, by omega, (settle_next hregistry sub d₂ _ before hd).trans hrest⟩
      · exact ⟨1, by omega, settle_dropped hregistry sub _ before hd⟩

/-- When all directives hold and there are passes for all of them, the text behind them is left. -/
theorem settle_chain_kept (sub : Sub) (left : Nat) (r : Run) (before : Bool)
    (ht : MarkerFree t) (hne : ds ≠ []) (hall : ∀ d ∈ ds, d.Holds r.context.business.linkage)
    (hle : ds.length ≤ left) :
    settle e sub left (Directive.chain ds t) before r =
      (.ok (.text t true), afterPasses ds.length r) := by
  induction ds generalizing left before r with
  | nil => exact absurd rfl hne
  | cons d ds ih =>
    have hd := hall d List.mem_cons_self
    cases ds with
    | nil =>
      obtain ⟨left, rfl⟩ : ∃ k, left = k + 1 := ⟨left - 1, by simp at hle; omega⟩
      exact settle_last hregistry sub ht before hd
    | cons d₂ ds =>
      obtain ⟨left, rfl⟩ : ∃ k, left = k + 2 := ⟨left - 2, by simp at hle; omega⟩
      have hrest := ih (left + 1) (afterPasses 1 r) true (List.cons_ne_nil d₂ ds)
        (fun d hd => by
          rw [linkage_afterPasses]
          exact hall d (List.mem_cons_of_mem _ hd))
        (Nat.le_of_succ_le_succ hle)
      rw [afterPasses_afterPasses, Nat.add_comm 1] at hrest
      exact (settle_next hregistry sub d₂ _ before hd).trans hrest

/-- When there are passes for some of the directives only, and these hold, the others are left and
noted as a runaway. -/
theorem settle_chain_usedUp (sub : Sub) (ds : List Directive) (r : Run) (before : Bool)
    (hpos : 0 < left) (hfirst : ∀ d ∈ ds.take left, d.Holds r.context.business.linkage)
    (hlt : left < ds.length) :
    settle e sub left (Directive.chain ds t) before r =
      (.ok (.text (Directive.chain (ds.drop left) t) true), (afterPasses left r).mapReport
        (·.noteRunaway (r.unresolved (Directive.chain (ds.drop left) t)))) := by
  induction left generalizing ds before r with
  | zero => cases hpos
  | succ left ih =>
    obtain ⟨d, d₂, ds, rfl⟩ : ∃ d d₂ rest, ds = d :: d₂ :: rest := by
      match ds, hlt with
      | d :: d₂ :: rest, _ => exact ⟨d, d₂, rest, rfl⟩
    rw [List.take_succ_cons] at hfirst
    have hd := hfirst d List.mem_cons_self
    cases left with
    | zero => exact settle_usedUp hregistry sub d₂ _ before hd
    | succ left =>
      have hrest := ih (d₂ :: ds) (afterPasses 1 r) true (Nat.succ_pos left)
        (fun d hd => by
          rw [linkage_afterPasses]
          exact hfirst d (List.mem_cons_of_mem _ hd))
        (Nat.lt_of_succ_lt_succ hlt)
      rw [unresolved_afterPasses, afterPasses_afterPasses, Nat.add_comm 1] at hrest
      exact (settle_next hregistry sub d₂ _ before hd).trans hrest

end

/-! ## Lines -/

/-- A text of one line is written as it is. -/
theorem emitSettled_line {t : List Char} (ht : t ≠ []) (hsingle : '\n' ∉ t)
    (hreturn : t.getLast? ≠ some '\r') :
    emitSettled (.text t true) = writeLine (String.ofList t) := by
  rw [emitSettled_text, if_neg fun h => ht h.1, emit_single hsingle, dropLastIf_of_ne hreturn]
  show (writeLine (String.ofList t) >>= fun _ => pure ()) = _
  exact bind_pure_unit

end Engine

namespace Directive

variable {t : List Char}

/-- A directive is as single as its payload, and ends as that does. -/
theorem text_line (d : Directive) {payload : List Char} (hne : payload ≠ [])
    (hsingle : '\n' ∉ payload) :
    d.text payload ≠ [] ∧ '\n' ∉ d.text payload ∧
      (d.text payload).getLast? = payload.getLast? := by
  have hparts : d.text payload =
      (d.marker :: d.letter :: '|' :: (escape d.guard ++ ['|'])) ++ payload := by
    simp [text, directiveText]
  refine ⟨by simp [hparts], ?_, ?_⟩
  · have hmarker : '\n' ≠ d.marker := by
      rintro h
      have := d.isMarker_marker
      rw [← h] at this
      cases this
    have hletter : '\n' ≠ d.letter := by
      rcases d.isDirectiveName_letter with h | h <;> rw [h] <;> decide
    have hguard : '\n' ∉ escape d.guard := by
      intro hmem
      obtain ⟨c, hc, hmem⟩ := List.mem_flatMap.1 hmem
      split at hmem
      · revert hmem
        decide
      · obtain rfl := List.mem_singleton.1 hmem
        exact d.single hc
    simp [hparts, hmarker, hletter, hguard, hsingle]
  · rw [hparts, List.getLast?_append]
    cases payload with
    | nil => exact absurd rfl hne
    | cons c cs => rfl

/-- So is a chain of directives. -/
theorem chain_line (ds : List Directive) (ht : t ≠ []) (hsingle : '\n' ∉ t) :
    chain ds t ≠ [] ∧ '\n' ∉ chain ds t ∧ (chain ds t).getLast? = t.getLast? := by
  induction ds with
  | nil => exact ⟨ht, hsingle, rfl⟩
  | cons d ds ih =>
    obtain ⟨hne, hrest, hlast⟩ := ih
    obtain ⟨hne', hrest', hlast'⟩ := d.text_line hne hrest
    exact ⟨hne', hrest', hlast'.trans hlast⟩

theorem carriesMacros_chain {ds : List Directive} (hds : ds ≠ []) :
    carriesMacros (chain ds t) = true := by
  cases ds with
  | nil => exact absurd rfl hds
  | cons d ds => exact d.carriesMacros_text _

end Directive

namespace Engine

section

variable {b : Backend} {e : Engine} (hregistry : e.registry = b.registry) (sub : Sub) (number : Nat)
  {r : Run} {t : List Char} {ds : List Directive} (hds : ds ≠ [])

include hds in
/-- A chain goes through the passes and is written. -/
theorem processLine_chain : processLine e sub ⟨number, String.ofList (Directive.chain ds t)⟩ r =
    (settle e sub e.limits.passes (Directive.chain ds t) false >>= emitSettled) r := by
  rw [processLine, String.toList_ofList, if_pos (Directive.carriesMacros_chain hds)]

include hregistry hds

theorem processLine_chain_dropped
    (hdropped : ∃ d ∈ ds.take e.limits.passes, ¬ d.Holds r.context.business.linkage) :
    ∃ m, m ≤ e.limits.passes ∧
      processLine e sub ⟨number, String.ofList (Directive.chain ds t)⟩ r =
        (.ok (), afterPasses m r) := by
  obtain ⟨m, hm, hsettle⟩ := settle_chain_dropped hregistry sub _ r (t := t) false hdropped
  refine ⟨m, hm, ?_⟩
  rw [processLine_chain sub number hds, Effect.bind_eq, hsettle]
  rfl

variable (ht : t ≠ []) (hsingle : '\n' ∉ t) (hreturn : t.getLast? ≠ some '\r')

include ht hsingle hreturn

theorem processLine_chain_kept (hfree : MarkerFree t)
    (hall : ∀ d ∈ ds, d.Holds r.context.business.linkage) (hle : ds.length ≤ e.limits.passes) :
    processLine e sub ⟨number, String.ofList (Directive.chain ds t)⟩ r =
      writeLine (String.ofList t) (afterPasses ds.length r) := by
  rw [processLine_chain sub number hds, Effect.bind_eq,
    settle_chain_kept hregistry sub _ r false hfree hds hall hle]
  exact congrFun (emitSettled_line ht hsingle hreturn) _

theorem processLine_chain_usedUp
    (hfirst : ∀ d ∈ ds.take e.limits.passes, d.Holds r.context.business.linkage)
    (hlt : e.limits.passes < ds.length) :
    processLine e sub ⟨number, String.ofList (Directive.chain ds t)⟩ r =
      writeLine (String.ofList (Directive.chain (ds.drop e.limits.passes) t))
        ((afterPasses e.limits.passes r).mapReport
          (·.noteRunaway (r.unresolved (Directive.chain (ds.drop e.limits.passes) t)))) := by
  have hpos : 0 < e.limits.passes := by
    obtain ⟨left, hleft⟩ := passes_eq_succ e.limits
    omega
  obtain ⟨hne, hrest, hlast⟩ := Directive.chain_line (ds.drop e.limits.passes) ht hsingle
  rw [processLine_chain sub number hds, Effect.bind_eq,
    settle_chain_usedUp hregistry sub ds r false hpos hfirst hlt]
  exact congrFun (emitSettled_line hne hrest (by rwa [hlast])) _

end

/-- **Chains of conditional directives.** With the triggers of either backend, whatever the linkage
text, take a line of directives with a text behind them that is not empty and has neither markers nor
line breaks. Of the directives there are passes for so many as are allowed. If one of these does not
hold, nothing is written; if all directives are among them and hold, the text is; and if there are
more, while these hold, the line is written from the first of the others on and noted as a runaway.
Otherwise nothing changes in the run but the count of passes and what the context shows of a token.

Of two directives that differ in what they keep, but not in the guard, one leaves any payload and the
other leaves nothing. -/
theorem conditional_chain (b : Backend) (e : Engine) (hregistry : e.registry = b.registry)
    (sub : Sub) (number : Nat) (r : Run) (t : List Char) (ht : t ≠ []) (hfree : MarkerFree t)
    (hsingle : '\n' ∉ t) (hreturn : t.getLast? ≠ some '\r') :
    let linkage := r.context.business.linkage
    let allowed := max 1 e.limits.maxIterations
    let process := fun text => processLine e sub ⟨number, String.ofList text⟩ r
    (∀ ds : List Directive, ds ≠ [] →
      ((∃ d ∈ ds.take allowed, ¬ d.Holds linkage) →
        ∃ m, m ≤ allowed ∧ process (Directive.chain ds t) = (.ok (), afterPasses m r)) ∧
      ((∀ d ∈ ds, d.Holds linkage) → ds.length ≤ allowed →
        process (Directive.chain ds t) =
          writeLine (String.ofList t) (afterPasses ds.length r)) ∧
      ((∀ d ∈ ds.take allowed, d.Holds linkage) → allowed < ds.length →
        process (Directive.chain ds t) =
          writeLine (String.ofList (Directive.chain (ds.drop allowed) t))
            ((afterPasses allowed r).mapReport
              (·.noteRunaway (r.unresolved (Directive.chain (ds.drop allowed) t)))))) ∧
    ∀ d d' : Directive, d.keeping = .onMatch → d'.keeping = .onMismatch → d.guard = d'.guard →
      ∃ kept dropped, (kept = d ∧ dropped = d' ∨ kept = d' ∧ dropped = d) ∧
        (∀ payload, pass e sub (kept.text payload) r =
          (.ok (.rewritten payload 1), afterPasses 1 r)) ∧
        (∀ payload, pass e sub (dropped.text payload) r =
          (.ok (.rewritten [] 1), afterPasses 1 r)) ∧
        process (kept.text t) = writeLine (String.ofList t) (afterPasses 1 r) ∧
        process (dropped.text t) = (.ok (), afterPasses 1 r) := by
  intro linkage allowed process
  have hallowed : allowed = e.limits.passes := Nat.max_comm _ _
  constructor
  · intro ds hds
    rw [hallowed]
    exact ⟨processLine_chain_dropped hregistry sub number hds,
      processLine_chain_kept hregistry sub number hds ht hsingle hreturn hfree,
      processLine_chain_usedUp hregistry sub number hds ht hsingle hreturn⟩
  · intro d d' hmatch hmismatch hguard
    have hiff := Directive.holds_iff_not (L := linkage) hmatch hmismatch hguard
    obtain ⟨kept, dropped, hpair, hkept, hdropped⟩ : ∃ kept dropped : Directive,
        (kept = d ∧ dropped = d' ∨ kept = d' ∧ dropped = d) ∧ kept.Holds linkage ∧
          ¬ dropped.Holds linkage := by
      by_cases hd : d.Holds linkage
      · exact ⟨d, d', .inl ⟨rfl, rfl⟩, hd, hiff.1 hd⟩
      · exact ⟨d', d, .inr ⟨rfl, rfl⟩, Decidable.not_not.1 fun hd' => hd (hiff.2 hd'), hd⟩
    obtain ⟨left, hleft⟩ := passes_eq_succ e.limits
    refine ⟨kept, dropped, hpair, fun payload => ?_, fun payload => ?_, ?_, ?_⟩
    · rw [pass_directive hregistry, if_pos hkept]
    · rw [pass_directive hregistry, if_neg hdropped]
    · have hall : ∀ d ∈ [kept], d.Holds r.context.business.linkage := fun d hd => by
        rwa [List.mem_singleton.1 hd]
      have hle : [kept].length ≤ e.limits.passes := by
        rw [hleft]
        exact Nat.succ_le_succ (Nat.zero_le left)
      have hline := processLine_chain_kept hregistry sub number (List.cons_ne_nil kept []) ht
        hsingle hreturn hfree hall hle
      rw [Directive.chain_singleton] at hline
      exact hline
    · have hline := processLine_chain (e := e) (r := r) (t := t) sub number
        (List.cons_ne_nil dropped [])
      rw [Directive.chain_singleton, Effect.bind_eq, hleft,
        settle_dropped hregistry sub t false hdropped] at hline
      exact hline

/-- A directive with a marker and a separator in its guard. -/
def spelledGuard : Directive where
  marker := '&'
  keeping := .onMatch
  guard := "A|$B".toList
  isMarker_marker := by decide
  single := by decide
  closable := by decide

/-- A directive with an empty guard. -/
def emptyGuard : Directive where
  marker := '$'
  keeping := .onMismatch
  guard := []
  isMarker_marker := by decide
  single := by decide
  closable := by decide

/-- Of three directives that hold, two passes leave the third. -/
theorem conditional_chain_cut :
    let r := (shipped 2).begin { plainRequest with linkage := some "A|$B" } ⟨0⟩ {}
    let cut := "&<|A\\|$B|é"
    processLine (shipped 2) (call (shipped 2) 16) ⟨7, "&<|A\\|$B|$!||&<|A\\|$B|é"⟩ r =
      writeLine cut ((afterPasses 2 r).mapReport (·.noteRunaway ⟨"t", 0, cut⟩)) := by
  intro r cut
  obtain ⟨hchain, -⟩ := conditional_chain .java (shipped 2) rfl (call (shipped 2) 16) 7 r
    "é".toList (by decide) (by decide) (by decide) (by decide)
  obtain ⟨-, -, hcut⟩ := hchain [spelledGuard, emptyGuard, spelledGuard] (by simp)
  exact hcut (by decide +kernel) (by decide)

end Engine

end Stencil
