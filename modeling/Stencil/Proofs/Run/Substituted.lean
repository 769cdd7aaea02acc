import Stencil.Proofs.Run.Noted
import Stencil.Proofs.Token.Spans

/-!
# A pass substitutes

A pass takes up the tokens of a text one after the other, from left to right: a token without a
trigger is noted, and one with a trigger is resolved (`takeUp`). What the tokens came to is all that
the rewritten text depends on. It is the text with the replies in place of what the triggers consume,
all at once, and with the unknown tokens treated as the policy says (`substitute`). This is what a
pass comes to that meets no line-replacing trigger (`pass_substitutes`); a pass that meets one has
done the same with all that stands in front of it (`resolvePieces_append`).
-/

namespace Stencil

open Text (byteSize)

namespace Engine

/-! ## What tokens come to -/

/-- What a token with a trigger came to. -/
structure Reply where
  /-- The number of parameters that the trigger takes at most. -/
  max : Option Nat
  value : Option String
deriving DecidableEq, Repr

/-- Takes up the token at a column: it is resolved once by its trigger. Without a trigger it is noted
and has no reply. -/
def takeUp (e : Engine) (sub : Sub) (x : Nat × Token) : Gen (Option Reply) :=
  match e.registry.find? x.2.name with
  | none => do
    modify fun r => r.mapReport (·.noteUnknown (r.unresolved x.2.source))
    pure none
  | some trigger => do
    let value ← resolveToken e sub x.1 x.2 trigger
    pure (some ⟨trigger.maxParams, value⟩)

theorem takeUp_unregistered {e : Engine} {t : Token} (hunknown : e.registry.find? t.name = none)
    (sub : Sub) (column : Nat) : takeUp e sub (column, t) = (do
      modify fun r => r.mapReport (·.noteUnknown (r.unresolved t.source))
      pure none) := by
  rw [takeUp, hunknown]

theorem takeUp_registered {e : Engine} {t : Token} {trigger : Trigger}
    (hfound : e.registry.find? t.name = some trigger) (sub : Sub) (column : Nat) :
    takeUp e sub (column, t) = (do
      let value ← resolveToken e sub column t trigger
      pure (some ⟨trigger.maxParams, value⟩)) := by
  rw [takeUp, hfound]

/-- The tokens among pieces of which the first starts at a column, each with its own column. -/
def columns : (column : Nat) → List Piece → List (Nat × Token)
  | _, [] => []
  | column, .plain c :: ps => columns (advance column [c]) ps
  | column, .token t :: ps => (column, t) :: columns (advance column t.source) ps

/-- The column behind pieces. -/
def columnBehind (column : Nat) (ps : List Piece) : Nat :=
  ps.foldl (fun n p => advance n p.source) column

/-- What an unknown token leaves under a policy. -/
def leftUnder (policy : UnknownPolicy) (t : Token) : List Char :=
  match policy with
  | .keep => t.source
  | .remove => []

/-- The text that pieces become with the replies to their tokens. -/
def textWith (policy : UnknownPolicy) : List Piece → List (Option Reply) → List Char
  | .plain c :: ps, replies => c :: textWith policy ps replies
  | .token t :: ps, some reply :: replies =>
    valueText reply.value ++ t.sourceBeyond reply.max ++ textWith policy ps replies
  | .token t :: ps, none :: replies => leftUnder policy t ++ textWith policy ps replies
  | _, _ => []

/-- The outcome for a text behind one that became `cs`, with `n` tokens resolved. -/
def Outcome.behind (cs : List Char) (n : Nat) : Outcome → Outcome
  | replaced v => replaced v
  | rewritten text m => rewritten (cs ++ text) (n + m)

/-- The number of tokens that were resolved. -/
def resolvedAmong (replies : List (Option Reply)) : Nat := replies.countP Option.isSome

theorem kept_eq_behind (cs : List Char) (o : Outcome) : o.kept cs = o.behind cs 0 := by
  cases o with
  | replaced v => rfl
  | rewritten text m => rw [Outcome.kept, Outcome.behind, Nat.zero_add]

theorem resolved_eq_behind (cs : List Char) (o : Outcome) : o.resolved cs = o.behind cs 1 := by
  cases o with
  | replaced v => rfl
  | rewritten text m => rw [Outcome.resolved, Outcome.behind, Nat.add_comm]

/-- What stands behind two texts stands behind both as one. -/
theorem behind_behind (cs ds : List Char) (m n : Nat) (o : Outcome) :
    (o.behind ds n).behind cs m = o.behind (cs ++ ds) (m + n) := by
  cases o with
  | replaced v => rfl
  | rewritten text k => simp only [Outcome.behind, List.append_assoc, Nat.add_assoc]

theorem behind_nil (o : Outcome) : o.behind [] 0 = o := by
  cases o with
  | replaced v => rfl
  | rewritten text m => simp only [Outcome.behind, List.nil_append, Nat.zero_add]

/-- Whether a token replaces the line can be looked up. -/
theorem replacing_iff {e : Engine} {ps : List Piece} : Replacing e ps ↔
    (ps.filterMap Piece.token?).any fun t =>
      (e.registry.find? t.name).any (·.replacesLine) := by
  simp only [Replacing, List.any_eq_true, Option.any_eq_true]

instance {e : Engine} {ps : List Piece} : Decidable (Replacing e ps) :=
  decidable_of_iff _ replacing_iff.symm

theorem not_replacing_of_cons {e : Engine} {p : Piece} {ps : List Piece}
    (h : ¬ Replacing e (p :: ps)) : ¬ Replacing e ps := fun hps => h hps.cons

/-- **Tokens in front are taken up first.** With no line-replacing trigger among them, the tokens of
the pieces on the left are taken up in order, and what they came to does not change what is made of
the pieces on the right. -/
theorem resolvePieces_append (e : Engine) (sub : Sub) (column : Nat) {left : List Piece}
    (hleft : ¬ Replacing e left) (right : List Piece) :
    resolvePieces e sub column (left ++ right) = (do
      let replies ← (columns column left).mapM (takeUp e sub)
      let o ← resolvePieces e sub (columnBehind column left) right
      pure (o.behind (textWith e.limits.unknown left replies) (resolvedAmong replies))) := by
  induction left generalizing column with
  | nil =>
    simp only [List.nil_append, columns, List.mapM_nil, columnBehind, List.foldl_nil, textWith,
      resolvedAmong, List.countP_nil, behind_nil, pure_bind, bind_pure]
  | cons p left ih =>
    have hbehind := fun column => ih column (not_replacing_of_cons hleft)
    cases p with
    | plain c =>
      simp only [List.cons_append, resolvePieces, hbehind, columns, columnBehind, List.foldl_cons,
        textWith, Piece.source, bind_assoc, pure_bind, kept_eq_behind, behind_behind, Nat.zero_add]
      rfl
    | token t =>
      cases hfound : e.registry.find? t.name with
      | none =>
        have htake := takeUp_unregistered hfound sub column
        simp only [List.cons_append, resolvePieces, hfound, hbehind, columns, List.mapM_cons, htake,
          columnBehind, List.foldl_cons, textWith, Piece.source, bind_assoc, pure_bind,
          kept_eq_behind, behind_behind, Nat.zero_add]
        rfl
      | some trigger =>
        have hkeeps : trigger.replacesLine = false := by
          refine Bool.eq_false_iff.2 fun hreplaces => hleft ⟨t, ?_, trigger, hfound, hreplaces⟩
          exact List.mem_cons_self
        have htake := takeUp_registered hfound sub column
        simp only [List.cons_append, resolvePieces, hfound, hkeeps, hbehind, columns,
          List.mapM_cons, htake, columnBehind, List.foldl_cons, textWith, Piece.source, bind_assoc,
          pure_bind, resolved_eq_behind, behind_behind, resolvedAmong, List.countP_cons,
          Option.isSome_some, if_true, Bool.false_eq_true, if_false, Nat.add_comm 1]

/-- A token has a reply when it has a trigger, and only then. -/
theorem takeUp_isSome {e : Engine} {sub : Sub} {x : Nat × Token} {reply : Option Reply} {r s : Run}
    (h : takeUp e sub x r = (.ok reply, s)) :
    reply.isSome = e.registry.contains x.2.name := by
  rw [Registry.contains]
  cases hfound : e.registry.find? x.2.name with
  | none =>
    rw [takeUp_unregistered hfound, Effect.modify_bind] at h
    obtain ⟨rfl, -⟩ := Effect.pure_eq_ok_iff.1 h
    rfl
  | some trigger =>
    rw [takeUp_registered hfound] at h
    obtain ⟨value, t, -, hreply⟩ := Effect.bind_eq_ok_iff.1 h
    obtain ⟨rfl, -⟩ := Effect.pure_eq_ok_iff.1 hreply
    rfl

theorem mapM_takeUp_isSome {e : Engine} {sub : Sub} {xs : List (Nat × Token)}
    {replies : List (Option Reply)} {r s : Run}
    (h : xs.mapM (takeUp e sub) r = (.ok replies, s)) :
    replies.map Option.isSome = xs.map fun x => e.registry.contains x.2.name := by
  induction xs generalizing replies r with
  | nil =>
    rw [List.mapM_nil] at h
    obtain ⟨rfl, -⟩ := Effect.pure_eq_ok_iff.1 h
    rfl
  | cons x xs ih =>
    rw [List.mapM_cons] at h
    obtain ⟨reply, t, hreply, h⟩ := Effect.bind_eq_ok_iff.1 h
    obtain ⟨rest, u, hrest, h⟩ := Effect.bind_eq_ok_iff.1 h
    obtain ⟨rfl, rfl⟩ := Effect.pure_eq_ok_iff.1 h
    rw [List.map_cons, List.map_cons, takeUp_isSome hreply, ih hrest]

/-- The tokens that are taken up are those of the pieces. -/
theorem map_columns (column : Nat) (ps : List Piece) :
    (columns column ps).map (·.2) = ps.filterMap Piece.token? := by
  induction ps generalizing column with
  | nil => rfl
  | cons p ps ih =>
    cases p with
    | plain c => exact ih _
    | token t => exact congrArg (t :: ·) (ih _)

/-! ## Substitution -/

/-- A text for the place of a span. -/
structure Edit where
  span : Span
  text : List Char

/-- A text with edits made to it from a cursor on. The spans, one behind the other, are those of the
text as it stands. What lies between them is kept. -/
def applyEdits (cs : List Char) : (cursor : Nat) → List Edit → Option (List Char)
  | cursor, [] => slice? cs ⟨cursor, byteSize cs⟩
  | cursor, edit :: edits => do
    let gap ← slice? cs ⟨cursor, edit.span.start⟩
    let rest ← applyEdits cs edit.span.stop edits
    some (gap ++ (edit.text ++ rest))

/-- The edit for a token at an offset: its value in place of what is consumed, or, for an unknown
token, what the policy demands. -/
def editFor (policy : UnknownPolicy) (x : Nat × Token) : Option Reply → Option Edit
  | some reply => ((x.2.spanned x.1).consume? reply.max).map fun consumed =>
    ⟨consumed.1, valueText reply.value⟩
  | none =>
    match policy with
    | .keep => none
    | .remove => some ⟨(x.2.spanned x.1).full, []⟩

/-- The edits for tokens with the replies to them. -/
def editsFor (policy : UnknownPolicy) (xs : List (Nat × Token)) (replies : List (Option Reply)) :
    List Edit :=
  (xs.zip replies).filterMap fun y => editFor policy y.1 y.2

/-- A text with the replies to its tokens put in their places. -/
def substitute (policy : UnknownPolicy) (text : List Char) (replies : List (Option Reply)) :
    Option (List Char) :=
  applyEdits text 0 (editsFor policy (locate byteSize 0 (pieces text)) replies)

/-- An edit is made behind the gap in front of it. -/
theorem applyEdits_cons {policy : UnknownPolicy} {cs gap rest : List Char} {cursor : Nat}
    {x : Nat × Token} {xs : List (Nat × Token)} {reply : Option Reply}
    {replies : List (Option Reply)} {edit : Edit} (hedit : editFor policy x reply = some edit)
    (hgap : slice? cs ⟨cursor, edit.span.start⟩ = some gap)
    (hrest : applyEdits cs edit.span.stop (editsFor policy xs replies) = some rest) :
    applyEdits cs cursor (editsFor policy (x :: xs) (reply :: replies)) =
      some (gap ++ (edit.text ++ rest)) := by
  rw [editsFor, List.zip_cons_cons, List.filterMap_cons, hedit]
  rw [editsFor] at hrest
  simp only [applyEdits, hgap, hrest, Option.bind_eq_bind, Option.bind_some]

/-- The edits of the pieces behind `before`, made from a cursor in front of them. -/
theorem applyEdits_editsFor (policy : UnknownPolicy) (done gap : List Char) {cs before : List Char}
    {ps : List Piece} {replies : List (Option Reply)}
    (hcs : cs = before ++ (ps.map Piece.source).flatten) (hbefore : before = done ++ gap)
    (hlength : replies.length = (ps.filterMap Piece.token?).length) :
    applyEdits cs (byteSize done)
        (editsFor policy (locate byteSize (byteSize before) ps) replies) =
      some (gap ++ textWith policy ps replies) := by
  induction ps generalizing before done gap replies with
  | nil =>
    have hrest := slice?_append_end done gap
    rw [List.map_nil, List.flatten_nil, List.append_nil] at hcs
    rw [← hbefore, ← hcs] at hrest
    rw [textWith.eq_def, List.append_nil]
    exact hrest
  | cons p ps ih =>
    rw [List.map_cons, List.flatten_cons] at hcs
    have hgap := slice?_gap hcs hbefore
    have hafter : cs = before ++ p.source ++ (ps.map Piece.source).flatten := by
      rw [hcs, List.append_assoc]
    cases p with
    | plain c =>
      have hbehind := ih done (gap ++ [c]) hafter
        (by rw [hbefore, List.append_assoc]; rfl) hlength
      rw [Text.byteSize_append, List.append_assoc] at hbehind
      exact hbehind
    | token t =>
      have hsource : (Piece.token t).source = t.source := rfl
      rw [hsource] at hafter
      cases replies with
      | nil => cases hlength
      | cons reply replies =>
        have htail : replies.length = (ps.filterMap Piece.token?).length :=
          Nat.succ.inj hlength
        cases reply with
        | some reply =>
          -- the cursor goes behind what is consumed, so that the further parameters are a gap
          have hbehind := ih (before ++ t.sourceUpTo reply.max) (t.sourceBeyond reply.max) hafter
            (by rw [List.append_assoc, t.sourceUpTo_append_sourceBeyond]) htail
          rw [Text.byteSize_append, Text.byteSize_append] at hbehind
          have hedit : editFor policy (byteSize before, t) (some reply) =
              some ⟨⟨byteSize before, byteSize before + byteSize (t.sourceUpTo reply.max)⟩,
                valueText reply.value⟩ := by
            rw [editFor, consume?_spanned]
            rfl
          rw [locate, applyEdits_cons hedit hgap hbehind, textWith, List.append_assoc]
        | none =>
          cases policy with
          | keep =>
            -- no edit: the gap grows by the token
            have hbehind := ih done (gap ++ t.source) hafter
              (by rw [hbefore, List.append_assoc]) htail
            rw [Text.byteSize_append, List.append_assoc] at hbehind
            exact hbehind
          | remove =>
            have hbehind := ih (before ++ t.source) [] hafter
              (List.append_nil _).symm htail
            rw [Text.byteSize_append] at hbehind
            have hedit : editFor .remove (byteSize before, t) none =
                some ⟨⟨byteSize before, byteSize before + byteSize t.source⟩, []⟩ := by
              rw [editFor, full_spanned]
            rw [locate, applyEdits_cons hedit hgap hbehind]
            rfl

/-- The run with one more pass counted. -/
def counted (r : Run) : Run := r.mapReport fun p => { p with passes := p.passes + 1 }

/-- A pass that meets no line-replacing token. -/
theorem pass_eq (e : Engine) (sub : Sub) {text : List Char} (r : Run)
    (hnone : ¬ Replacing e (pieces text)) :
    pass e sub text r = ((columns 0 (pieces text)).mapM (takeUp e sub) >>= fun replies =>
      pure (.rewritten (textWith e.limits.unknown (pieces text) replies)
        (resolvedAmong replies))) (counted r) := by
  have hpieces := resolvePieces_append e sub 0 hnone []
  simp only [List.append_nil, resolvePieces, pure_bind, Outcome.behind, Nat.add_zero] at hpieces
  rw [pass, Effect.modify_bind, hpieces]
  rfl

/-- **A pass is a simultaneous substitution.** Take a text without a line-replacing token. A pass over
it takes up all of its tokens, once each and from left to right, and does nothing else in the run. If
none fails, the text is rewritten by putting what they came to in their places, all at once, and as
many tokens are counted as have triggers; if one fails, so does the pass. Nothing about the triggers
matters but what the tokens came to: with the same replies, another pass over the text, with other
triggers and in another run, makes the same of it. -/
theorem pass_substitutes (e : Engine) (sub : Sub) (text : List Char) (r : Run)
    (hnone : ¬ Replacing e (pieces text)) :
    (columns 0 (pieces text)).map (·.2) = tokenize (String.ofList text) ∧
    (∀ replies s, (columns 0 (pieces text)).mapM (takeUp e sub) (counted r) = (.ok replies, s) →
      replies.map Option.isSome =
        (tokenize (String.ofList text)).map (fun t => e.registry.contains t.name) ∧
      ∃ mid, substitute e.limits.unknown text replies = some mid ∧
        pass e sub text r = (.ok (.rewritten mid
          ((tokenize (String.ofList text)).countP fun t => e.registry.contains t.name)), s)) ∧
    (∀ err s, (columns 0 (pieces text)).mapM (takeUp e sub) (counted r) = (.error err, s) →
      pass e sub text r = (.error err, s)) ∧
    ∀ (e' : Engine) (sub' : Sub) (r' s s' : Run) (replies : List (Option Reply)),
      e'.limits.unknown = e.limits.unknown → ¬ Replacing e' (pieces text) →
      (columns 0 (pieces text)).mapM (takeUp e sub) (counted r) = (.ok replies, s) →
      (columns 0 (pieces text)).mapM (takeUp e' sub') (counted r') = (.ok replies, s') →
      (pass e' sub' text r').1 = (pass e sub text r).1 := by
  have htokens : (columns 0 (pieces text)).map (·.2) = tokenize (String.ofList text) := by
    rw [map_columns, tokenize, String.toList_ofList]
  refine ⟨htokens, fun replies s hreplies => ?_, fun err s herr => ?_,
    fun e' sub' r' s s' replies hpolicy hnone' hreplies hreplies' => ?_⟩
  · have hisSome : replies.map Option.isSome =
        (tokenize (String.ofList text)).map fun t => e.registry.contains t.name := by
      rw [mapM_takeUp_isSome hreplies, ← htokens, List.map_map]
      rfl
    have hlength : replies.length = ((pieces text).filterMap Piece.token?).length := by
      have := congrArg List.length hisSome
      rwa [List.length_map, List.length_map, tokenize, String.toList_ofList] at this
    have hcount : resolvedAmong replies =
        (tokenize (String.ofList text)).countP fun t => e.registry.contains t.name := by
      have := congrArg (List.countP id) hisSome
      rwa [List.countP_map, List.countP_map] at this
    have htext : text = [] ++ ((pieces text).map Piece.source).flatten := (flatten_pieces text).symm
    have hmid := applyEdits_editsFor e.limits.unknown [] [] htext rfl hlength
    refine ⟨hisSome, _, hmid, ?_⟩
    rw [pass_eq e sub r hnone, Effect.bind_eq, hreplies, ← hcount]
    rfl
  · rw [pass_eq e sub r hnone, Effect.bind_eq, herr]
  · rw [pass_eq e sub r hnone, pass_eq e' sub' r' hnone', Effect.bind_eq, Effect.bind_eq, hreplies,
      hreplies', hpolicy]
    rfl

/-- An engine that removes unknown tokens. Its only trigger puts its only parameter in brackets. -/
def bracketing : Engine where
  registry := (Registry.empty "").register
    { name := "E", maxParams := some 1
      resolve := fun ps => .done (some ("<" ++ ps.headD "" ++ ">")) }
  schema := .absent
  store t := .error (.templateNotFound t .notFound)
  limits := { unknown := .remove }

/-- The second parameter of the first token stays in the text, and the unknown token does not. -/
theorem bracketing_substitutes :
    let text := "é&E|a|b|&U|c|&E().".toList
    let r := bracketing.begin plainRequest ⟨0⟩ {}
    ¬ Replacing bracketing (pieces text) ∧
      (pass bracketing (call bracketing 0) text r).1 = .ok (.rewritten "é<a>b|<>.".toList 2) := by
  intro text r
  have hnone : ¬ Replacing bracketing (pieces text) := by decide +kernel
  have hreplies := Effect.eq_ok_of_fst (x := (columns 0 (pieces text)).mapM
    (takeUp bracketing (call bracketing 0)) (counted r))
    (a := [some ⟨some 1, some "<a>"⟩, none, some ⟨some 1, some "<>"⟩]) (by decide +kernel)
  obtain ⟨-, hpass, -⟩ := pass_substitutes bracketing (call bracketing 0) text r hnone
  obtain ⟨-, mid, hmid, hpass⟩ := hpass _ _ hreplies
  have hsubstitute : substitute .remove text
      [some ⟨some 1, some "<a>"⟩, none, some ⟨some 1, some "<>"⟩] = some "é<a>b|<>.".toList := by
    decide +kernel
  obtain rfl := Option.some.inj (hsubstitute.symm.trans hmid)
  refine ⟨hnone, ?_⟩
  rw [hpass]
  have hcount : (tokenize (String.ofList text)).countP
      (fun t => bracketing.registry.contains t.name) = 2 := by decide +kernel
  rw [hcount]

end Engine

end Stencil
