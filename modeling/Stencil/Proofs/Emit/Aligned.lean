import Stencil.Proofs.Emit.Listed
import Stencil.Proofs.Run.Replaced

/-!
# The column of continuation lines

An emitter that renders one fragment per line indents the further ones to the column of its token,
as the token stands in the text that a pass is made over. Its first fragment stands behind what
the pass makes of the text in front, though. So the fragments are aligned in the written lines
just if the text in front ends at the same column before and after the pass
(`fragments_aligned_iff`): always when no token stands in front, and in general not otherwise.
-/

namespace Stencil

open Naming Text

/-! ## Emitters -/

/-- An emitter that joins a fragment for each field, one per line and the further ones indented to
the column of its token. -/
structure Layout where
  emitter : Emitter
  separator : String
  /-- What is rendered for a field, by the parameters and the position of the field. -/
  fragment : List String → Nat → Field → String
  text_eq : ∀ c ps fs,
    emitter.text c ps fs = (Join.continued separator).render c.column (fragment ps) fs := by
      intros; rfl
  keepsLine : emitter.replacesLine = false := by rfl
  separator_unbroken : Unbroken separator := by decide
  fragment_unbroken : ∀ {ps : List String} {f : Field} (i : Nat), (∀ p ∈ ps, Unbroken p) →
    f.Unbroken → Unbroken (fragment ps i f)

namespace Cobol

/-- A list of columns. -/
def columnLayout (name summary : String) (selection : Selection) : Layout where
  emitter := columnEmitter name summary selection
  separator := ","
  fragment _ _ f := f.column
  fragment_unbroken _ _ hf := hf.column

/-- A list of host variables. -/
def hostVarLayout (name summary : String) : Layout where
  emitter := hostVarEmitter name summary
  separator := ","
  fragment ps _ f := hostVar (param ps 0) f
  fragment_unbroken _ hps hf := hostVar_unbroken (fun _ hq => param_unbroken hps hq) hf

/-- The statements that initialize host variables. -/
def moveInitialLayout : Layout where
  emitter := moveInitial
  separator := ""
  fragment ps _ f := "MOVE " ++ f.initialValue ++ " TO " ++ ofRecord (param ps 0) f
  fragment_unbroken _ hps hf :=
    moves_unbroken (fun _ hq => param_unbroken hps hq) (List.forall_mem_singleton.2 hf) _
      (List.mem_singleton.2 rfl)

/-- The statements that move fields between records. -/
def moveBetweenLayout : Layout where
  emitter := moveBetween
  separator := ""
  fragment ps _ f := "MOVE " ++ ofRecord (param ps 0) f ++ " TO " ++ ofRecord (param ps 1) f
  fragment_unbroken _ hps hf := by
    simp +decide [ofRecord_unbroken (fun _ hq => param_unbroken hps hq) hf]

/-- The statements that display fields. -/
def displayLayout : Layout where
  emitter := display
  separator := ""
  fragment ps _ f := "DISPLAY '" ++ f.cobolName ++ ": ' " ++ ofRecord (param ps 0) f
  fragment_unbroken _ hps hf := by
    simp +decide [hf.cobolName, ofRecord_unbroken (fun _ hq => param_unbroken hps hq) hf]

/-- The emitters of COBOL with a fragment per line and no word in front of the first. -/
def layouts : List Layout :=
  [columnLayout "SELCOLS" "SELECT column list" .all,
   columnLayout "KEYCOLS" "Key column list" .keys,
   columnLayout "INSCOLS" "INSERT column list" .all,
   hostVarLayout "INTOVARS" "INTO host variables: |qualifier|",
   hostVarLayout "INSVALS" "INSERT VALUES host variables: |qualifier|",
   moveInitialLayout, moveBetweenLayout, displayLayout]

end Cobol

namespace Java

theorem javaType_unbroken (f : Field) : Unbroken f.javaType := by
  unfold Field.javaType
  split <;> decide

theorem jdbcAccessor_unbroken (f : Field) : Unbroken f.jdbcAccessor := by
  unfold Field.jdbcAccessor
  split <;> decide

theorem member_unbroken {f : Field} (hcolumn : Unbroken f.column) : Unbroken (member f) :=
  camelCase_unbroken hcolumn

theorem property_unbroken {f : Field} (hcolumn : Unbroken f.column) : Unbroken (property f) :=
  pascalCase_unbroken hcolumn

theorem param_getD_unbroken {ps : List String} (hps : ∀ p ∈ ps, Unbroken p) (i : Nat)
    {other : String} (hother : Unbroken other) : Unbroken ((param ps i).getD other) := by
  cases hp : param ps i with
  | none => exact hother
  | some p => exact param_unbroken hps hp

theorem readColumn_unbroken {resultSet : String} (hset : Unbroken resultSet) {f : Field}
    (hcolumn : Unbroken f.column) : Unbroken (readColumn resultSet f) := by
  unfold readColumn
  split
  · simp +decide [hset, hcolumn, javaType_unbroken]
  · simp +decide [hset, hcolumn, jdbcAccessor_unbroken]

/-- The member declarations. -/
def membersLayout : Layout where
  emitter := members
  separator := ""
  fragment _ _ f := "private " ++ f.javaType ++ " " ++ member f ++ ";"
  fragment_unbroken _ _ hf := by simp +decide [javaType_unbroken, member_unbroken hf.column]

/-- The statements that bind key values. -/
def bindKeysLayout : Layout where
  emitter := bindKeys
  separator := ""
  fragment ps i f :=
    (param ps 0).getD "stmt" ++ ".set" ++ f.jdbcAccessor ++ "(" ++ toString (i + 1) ++ ", " ++
      (param ps 1).getD "key" ++ ".get" ++ property f ++ "());"
  fragment_unbroken _ hps hf := by
    simp +decide [jdbcAccessor_unbroken, property_unbroken hf.column, param_getD_unbroken hps]

/-- The statements that copy a row. -/
def readRowLayout : Layout where
  emitter := readRow
  separator := ""
  fragment ps _ f :=
    (param ps 1).getD "row" ++ ".set" ++ property f ++ "(" ++
      readColumn ((param ps 0).getD "rs") f ++ ");"
  fragment_unbroken _ hps hf := by
    simp +decide [property_unbroken hf.column, param_getD_unbroken hps, readColumn_unbroken,
      hf.column]

/-- The emitters of Java with a fragment per line and no word in front of the first. -/
def layouts : List Layout := [membersLayout, bindKeysLayout, readRowLayout]

end Java

theorem find?_layouts :
    (∀ m ∈ Cobol.layouts, Backend.cobol.registry.find? m.emitter.name = some m.emitter.trigger) ∧
    ∀ m ∈ Java.layouts, Backend.java.registry.find? m.emitter.name = some m.emitter.trigger := by
  have hcobol : Cobol.layouts.map (·.emitter) ⊆ Cobol.sqlEmitters ++ Cobol.storageEmitters := by
    show [Cobol.selectColumns, Cobol.keyColumns, Cobol.insertColumns, Cobol.intoVars,
      Cobol.insertValues, Cobol.moveInitial, Cobol.moveBetween, Cobol.display] ⊆ _
    simp [Cobol.sqlEmitters, Cobol.storageEmitters]
  have hjava : Java.layouts.map (·.emitter) ⊆ Java.emitters := by
    show [Java.members, Java.bindKeys, Java.readRow] ⊆ _
    simp [Java.emitters]
  exact ⟨fun m hm => Cobol.find?_emitter (hcobol (List.mem_map_of_mem hm)),
    fun m hm => Java.find?_emitter (hjava (List.mem_map_of_mem hm))⟩

namespace Engine

variable {e : Engine} {room : Nat} {sub : Sub} {r s u w : Run} {text mid : List Char} {n : Nat}
  {before behind : List Piece} {t : Token}

/-! ## The call of an emitter -/

/-- Taking up a token leaves the place of the current context. -/
theorem takeUp_place (hsub : SubDoes e room sub) (x : Nat × Token) :
    Preserves (fun r => (r.current, r.arena.size)) (takeUp e sub x) := by
  intro r
  have hdoes : Does e room .line (takeUp e sub x) := by
    unfold takeUp
    split
    · next hnone => exact does_bind (does_modify fun _ => .unknown x.2 hnone) fun _ => does_pure _
    · exact does_bind (resolveToken_alike kept_true hsub.alike x.1 x.2 _).does fun _ => does_pure _
  have hframe := (hdoes r).frame
  exact Prod.ext hframe.current hframe.size

/-- Where tokens have been taken up in a pass over a line, the context is live. -/
theorem PassOver.live_taken (hsub : SubDoes e room sub) {left : Nat} {text mid : List Char}
    (hpass : PassOver e sub left text r mid s) (hlive : r.current < r.arena.size)
    {xs : List (Nat × Token)} {replies : List (Option Reply)}
    (htaken : xs.mapM (takeUp e sub) (counted s) = (.ok replies, u)) :
    u.current < u.arena.size := by
  have hplace := preserves_mapM (takeUp_place hsub) xs (counted s)
  rw [htaken] at hplace
  have hplace := hplace.trans (hpass.preserves (takeUp_place hsub) fun _ => rfl)
  have hcurrent : u.current = r.current := congrArg Prod.fst hplace
  have hsize : u.arena.size = r.arena.size := congrArg Prod.snd hplace
  rwa [hcurrent, hsize]

theorem showing_column (hlive : u.current < u.arena.size) (column : Nat) (t : Token)
    (max : Option Nat) : (showing column t max u).context.column = column := by
  rw [Run.context, showing, Run.mapContext, Arena.get_modify_self hlive]

/-- An emitter resolves a token to its value for the fields that are looked up. -/
theorem resolveToken_emitter {m : Emitter} {column : Nat} {fs : Option (List Field)}
    {value : Option String}
    (hfields : (e.tableFields (m.selection == .keys) (showing column t m.maxParams u)).1 = .ok fs)
    (hvalue : resolveToken e sub column t m.trigger u = (.ok value, w)) :
    value = some (m.value (showing column t m.maxParams u).context (t.paramsUpTo m.maxParams)
      (fs.bind m.selection.keep)) := by
  rw [resolveToken, Effect.modify_bind] at hvalue
  obtain ⟨given, v, hperform, hvalue⟩ := Effect.bind_eq_ok_iff.1 hvalue
  rw [Effect.modify_bind] at hvalue
  obtain ⟨rfl, -⟩ := Effect.pure_eq_ok_iff.1 hvalue
  have hrenders : Renders e sub _ m _ _ := renders_value hfields (t.paramsUpTo m.maxParams)
  have hgiven := congrArg Prod.fst hperform
  exact Except.ok.inj (hgiven.symm.trans hrenders)

/-- A pass that rewrites a text has no line-replacing token in it. -/
theorem not_replacing_of_pass (hmid : pass e sub text s = (.ok (.rewritten mid n), w)) :
    ¬ Replacing e (pieces text) := by
  intro hreplacing
  obtain ⟨left, t, right, trigger, hpieces, hleft, hfound, hreplaces⟩ := hreplacing.leftmost
  rw [pass_replacing hpieces hleft hfound hreplaces] at hmid
  obtain ⟨value, v, -, hvalue⟩ := Effect.bind_eq_ok_iff.1 hmid
  cases (Effect.pure_eq_ok_iff.1 hvalue).1

/-- The text that a pass makes: what is made of the pieces in front of a token with a trigger, the
value of the token, and more. The token is counted. -/
theorem pass_token {trigger : Trigger} {replies : List (Option Reply)}
    (hpieces : pieces text = before ++ .token t :: behind)
    (hfound : e.registry.find? t.name = some trigger) (hkeeps : trigger.replacesLine = false)
    (htaken : (columns 0 before).mapM (takeUp e sub) (counted s) = (.ok replies, u))
    (hmid : pass e sub text s = (.ok (.rewritten mid n), w)) :
    ∃ value v rest k, resolveToken e sub (columnBehind 0 before) t trigger u = (.ok value, v) ∧
      mid = textWith e.limits.unknown before replies ++ (valueText value ++ rest) ∧ n = k + 1 := by
  have hfront : ¬ Replacing e before := by
    rintro ⟨t', ht', hreplaces⟩
    refine not_replacing_of_pass hmid ⟨t', ?_, hreplaces⟩
    rw [hpieces, List.filterMap_append]
    exact List.mem_append_left _ ht'
  rw [pass, Effect.modify_bind, hpieces, resolvePieces_append e sub 0 hfront] at hmid
  obtain ⟨replies', u', htaken', hmid⟩ := Effect.bind_eq_ok_iff.1 hmid
  cases htaken.symm.trans htaken'
  obtain ⟨o, v', hrest, hmid⟩ := Effect.bind_eq_ok_iff.1 hmid
  obtain ⟨hmid, -⟩ := Effect.pure_eq_ok_iff.1 hmid
  simp only [resolvePieces, hfound, hkeeps, Bool.false_eq_true, if_false] at hrest
  obtain ⟨value, v, hvalue, hrest⟩ := Effect.bind_eq_ok_iff.1 hrest
  obtain ⟨o', v'', -, hrest⟩ := Effect.bind_eq_ok_iff.1 hrest
  obtain ⟨rfl, -⟩ := Effect.pure_eq_ok_iff.1 hrest
  cases o' with
  | replaced value' => cases hmid
  | rewritten rest k =>
    cases hmid
    exact ⟨value, v, t.sourceBeyond trigger.maxParams ++ rest, resolvedAmong replies + k, hvalue,
      by rw [List.append_assoc], rfl⟩

/-- Where there are no tokens, none is taken up, -/
theorem columns_plain {ps : List Piece} (hps : ps.filterMap Piece.token? = []) {column : Nat} :
    columns column ps = [] := by
  have hmap := map_columns column ps
  rwa [hps, List.map_eq_nil_iff] at hmap

/-- and the text ends at the column behind the pieces. -/
theorem advance_plain {policy : UnknownPolicy} {ps : List Piece}
    (hps : ps.filterMap Piece.token? = []) (column : Nat) :
    advance column (textWith policy ps []) = columnBehind column ps := by
  induction ps generalizing column with
  | nil => rfl
  | cons p ps ih =>
    cases p with
    | plain c => exact ih hps (advance column [c])
    | token t => cases hps

/-- A line is written as the text that a pass makes of it, when the pass resolves a token and leaves
nothing to be done. -/
theorem processLine_rewritten {line : Line}
    (hpass : PassOver e sub e.limits.passes line.text.toList r text s)
    (hmid : pass e sub text s = (.ok (.rewritten mid (n + 1)), w)) (hdone : Exhausted e mid)
    (hall : e.remains mid = mid) (hne : mid ≠ []) :
    ∃ passes unknown, processLine e sub line r =
      writeLines (valueLines mid) (w.noting passes unknown) := by
  obtain ⟨left, after, hsettle⟩ := hpass.settle_eq false
  have hends : ∃ passes unknown, settle e sub (left + 1) text after s =
      (.ok (.text mid true), w.noting passes unknown) := by
    rw [settle, Effect.bind_eq, hmid]
    simp only [resolvable_eq_false_iff.2 hdone, Bool.false_eq_true, if_false]
    split
    · exact ⟨w.report.passes, w.report.unknownTriggers, rfl⟩
    · split
      · exact ⟨w.report.passes, w.report.unknownTriggers, rfl⟩
      · exact settle_remaining sub hdone hall left true w
  obtain ⟨passes, unknown, hends⟩ := hends
  refine ⟨passes, unknown, ?_⟩
  rw [processLine, if_pos hpass.carries, Effect.bind_eq, hsettle, hends]
  show emitSettled (.text mid true) _ = _
  rw [emitSettled_text, if_neg fun h => hne h.1, emit]

/-! ## Where the fragments stand -/

/-- The token of an emitter in a pass over a line. -/
structure Occurrence (e : Engine) (room : Nat) (line : Line) (r : Run) where
  layout : Layout
  /-- The text that the pass is made over. -/
  text : List Char
  /-- The run in which the pass begins. -/
  begun : Run
  before : List Piece
  token : Token
  behind : List Piece
  /-- What the tokens in front have come to. -/
  replies : List (Option Reply)
  /-- The run in which the emitter is called. -/
  called : Run
  /-- The fields that it renders. -/
  fields : List Field
  /-- The text that the pass makes. -/
  made : List Char
  /-- The number of tokens that the pass resolves. -/
  resolved : Nat
  /-- The run in which the pass ends. -/
  ended : Run
  pass_over : PassOver e (call e room) e.limits.passes line.text.toList r text begun
  pieces_eq : pieces text = before ++ .token token :: behind
  found : e.registry.find? token.name = some layout.emitter.trigger
  taken : (columns 0 before).mapM (takeUp e (call e room)) (counted begun) = (.ok replies, called)
  selected : ∃ all, (e.tableFields (layout.emitter.selection == .keys)
      (showing (columnBehind 0 before) token layout.emitter.maxParams called)).1 = .ok (some all) ∧
    layout.emitter.selection.keep all = some fields
  rewritten : pass e (call e room) text begun = (.ok (.rewritten made resolved), ended)

namespace Occurrence

variable {line : Line} (o : Occurrence e room line r)

/-- The column of the token in the text that the pass is made over. -/
def column : Nat := columnBehind 0 o.before

/-- What the pass makes of the text in front of the token. -/
def front : List Char := textWith e.limits.unknown o.before o.replies

/-- The parameters of the call. -/
def params : List String := o.token.paramsUpTo o.layout.emitter.maxParams

/-- The fragments that are rendered. -/
def fragments : List String := o.fields.mapIdx (o.layout.fragment o.params)

/-- The text that the pass makes holds the joined fragments behind what is made of the text in
front. -/
theorem made_eq (hlive : r.current < r.arena.size) : ∃ rest, o.made =
    o.front ++ ((joinContinued o.fragments o.layout.separator o.column).toList ++ rest) := by
  obtain ⟨all, hfields, hselected⟩ := o.selected
  obtain ⟨value, v, rest, -, hvalue, hmade, -⟩ :=
    pass_token o.pieces_eq o.found o.layout.keepsLine o.taken o.rewritten
  obtain rfl := resolveToken_emitter hfields hvalue
  have hcolumn : (showing o.column o.token o.layout.emitter.maxParams o.called).context.column =
      o.column :=
    showing_column (o.pass_over.live_taken (call_does e room) hlive o.taken) _ _ _
  refine ⟨rest, hmade.trans ?_⟩
  rw [Option.bind_some, hselected, Emitter.value, o.layout.text_eq]
  show _ = o.front ++ (((Join.continued o.layout.separator).render o.column
    (o.layout.fragment o.params) o.fields).toList ++ rest)
  rw [← hcolumn]
  rfl

theorem fragments_unbroken (hnames : ∀ f ∈ o.fields, f.Unbroken)
    (hparams : ∀ p ∈ o.params, Unbroken p) : ∀ text ∈ o.fragments, Unbroken text := by
  intro text htext
  obtain ⟨i, hi, rfl⟩ := List.mem_mapIdx.1 htext
  exact o.layout.fragment_unbroken i hparams (hnames _ (List.getElem_mem hi))

theorem length_fragments : o.fragments.length = o.fields.length := List.length_mapIdx

/-- Without a token in front of it, the text in front stays as it is. -/
theorem column_front (hfront : o.before.filterMap Piece.token? = []) :
    advance 0 o.front = o.column := by
  have htaken := o.taken
  rw [columns_plain hfront, List.mapM_nil] at htaken
  obtain ⟨hreplies, -⟩ := Effect.pure_eq_ok_iff.1 htaken
  rw [front, ← hreplies]
  exact advance_plain hfront 0

end Occurrence

/-- **When continuation lines are aligned.** Take the token of an emitter in any pass over a line,
with any pieces around it, let the emitter render two fields or more, and let the names and
parameters hold no line breaks and the text that the pass makes hold nothing that is left to do.
Then the line is written with the fragments on consecutive lines. The first one stands where the
text ends that the pass has made of the text in front of the token, the others at the column that
the token had before. So they are aligned just if these columns are the same, as when no token
stands in front. The emitters in question are those that the backends have under the names of
`Cobol.layouts` and `Java.layouts`. -/
theorem fragments_aligned_iff (e : Engine) (room : Nat) (line : Line) (r : Run)
    (hlive : r.current < r.arena.size) (o : Occurrence e room line r)
    (hmany : 2 ≤ o.fields.length) (hnames : ∀ f ∈ o.fields, f.Unbroken)
    (hparams : ∀ p ∈ o.params, Unbroken p) (hdone : Exhausted e o.made)
    (hall : e.remains o.made = o.made) :
    (∃ above head tail below passes unknown,
      let shown := placed o.layout.separator o.column tail head o.fragments
      processLine e (call e room) line r =
        writeLines ((above ++ shown.map Placed.line ++ below).map
          fun l => String.ofList (dropLastIf '\r' l)) (o.ended.noting passes unknown) ∧
      head.length = advance 0 o.front ∧
      (Aligned shown ↔ advance 0 o.front = o.column) ∧
      (o.before.filterMap Piece.token? = [] → Aligned shown)) ∧
    (∀ m ∈ Cobol.layouts, Backend.cobol.registry.find? m.emitter.name = some m.emitter.trigger) ∧
    ∀ m ∈ Java.layouts, Backend.java.registry.find? m.emitter.name = some m.emitter.trigger := by
  obtain ⟨rest, hmade⟩ := o.made_eq hlive
  obtain ⟨-, -, -, k, -, -, hcount⟩ :=
    pass_token o.pieces_eq o.found o.layout.keepsLine o.taken o.rewritten
  have hmany : 2 ≤ o.fragments.length := o.length_fragments ▸ hmany
  obtain ⟨above, head, tail, below, hhead, hsplit⟩ := splitOn_joined o.front rest
    o.layout.separator_unbroken (o.fragments_unbroken hnames hparams)
    (List.ne_nil_of_length_pos (by omega))
  rw [← hmade] at hsplit
  have haligned : Aligned (placed o.layout.separator o.column tail head o.fragments) ↔
      advance 0 o.front = o.column := by
    rw [aligned_iff hmany, hhead]
  have hne : o.made ≠ [] := by
    intro hempty
    have hlength := congrArg List.length hsplit
    rw [hempty, List.length_append, List.length_append, List.length_map, length_placed] at hlength
    change 1 = _ at hlength
    omega
  have hrewritten := o.rewritten
  rw [hcount] at hrewritten
  obtain ⟨passes, unknown, hline⟩ :=
    processLine_rewritten o.pass_over hrewritten hdone hall hne
  refine ⟨⟨above, head, tail, below, passes, unknown, ?_, hhead, haligned,
    fun hfront => haligned.2 (o.column_front hfront)⟩, find?_layouts⟩
  rw [hline, valueLines, hsplit]

/-- A COBOL engine. -/
def listing : Engine where
  registry := Backend.cobol.registry
  schema := .absent
  store t := .error (.templateNotFound t .notFound)
  limits := {}

/-- A request with two fields for a table. -/
def listingRequest : Request where
  template := "t"
  output := "o"
  insuranceLine := "BOP"
  processType := ""
  table := some "RATE"
  tableFields := some [{ column := "ID" }, { column := "AMT" }]

/-- A line with a column list in front of a list of host variables. -/
def selectInto : Line := ⟨1, "SELECT &SELCOLS| INTO &INTOVARS|"⟩

/-- The token of the host variables. -/
def selectIntoHosts : Occurrence listing 0 selectInto (listing.begin listingRequest ⟨0⟩ {}) where
  layout := Cobol.hostVarLayout "INTOVARS" "INTO host variables: |qualifier|"
  text := selectInto.text.toList
  begun := listing.begin listingRequest ⟨0⟩ {}
  before := (pieces selectInto.text.toList).take 14
  token := ⟨'&', "INTOVARS".toList, .pipe []⟩
  behind := []
  replies := [some ⟨some 0, some "ID,\n       AMT"⟩]
  called := _
  fields := [{ column := "ID" }, { column := "AMT" }]
  made := "SELECT ID,\n       AMT INTO :ID,\n                      :AMT".toList
  resolved := 2
  ended := _
  pass_over := .first (by decide +kernel)
  pieces_eq := by decide +kernel
  found := rfl
  taken := Effect.eq_ok_of_fst (by decide +kernel)
  selected := ⟨[{ column := "ID" }, { column := "AMT" }],
    Effect.eq_ok_of_toOption (by decide +kernel), rfl⟩
  rewritten := Effect.eq_ok_of_fst (by decide +kernel)

/-- The first host variable stands at column 16, the second one at the column 22 of the token. -/
theorem selectIntoHosts_out_of_line :
    ∃ above head tail below passes unknown,
      let shown := placed "," 22 tail head [":ID", ":AMT"]
      processLine listing (call listing 0) selectInto (listing.begin listingRequest ⟨0⟩ {}) =
        writeLines ((above ++ shown.map Placed.line ++ below).map
          fun l => String.ofList (dropLastIf '\r' l)) (selectIntoHosts.ended.noting passes unknown) ∧
      head.length = 16 ∧ ¬ Aligned shown := by
  have hnames : ∀ f ∈ selectIntoHosts.fields, f.Unbroken := by
    refine List.forall_mem_cons.2 ⟨⟨by decide, nofun⟩, List.forall_mem_singleton.2 ⟨by decide, nofun⟩⟩
  have hplain : carriesMacros selectIntoHosts.made = false := by decide +kernel
  obtain ⟨⟨above, head, tail, below, passes, unknown, hline, hhead, haligned, -⟩, -⟩ :=
    fragments_aligned_iff listing 0 selectInto _ (begin_live _ _ _ _) selectIntoHosts (by decide)
      hnames (by decide +kernel) (exhausted_of_not_carriesMacros hplain) (remains_keep rfl _)
  have hfront : advance 0 selectIntoHosts.front = 16 := by decide +kernel
  have hcolumn : selectIntoHosts.column = 22 := by decide +kernel
  rw [hfront] at hhead haligned
  rw [hcolumn] at hline haligned
  exact ⟨above, head, tail, below, passes, unknown, hline, hhead,
    fun h => absurd (haligned.1 h) (by decide)⟩

/-- A value that is shorter than its token puts the column behind it out of line. -/
theorem columns_out_of_line :
    let shown := placed "," 6 [] "BOP ".toList ["ID", "AMT"]
    (listing.run listingRequest (.ofBytes (Text.encode "&LOB| &SELCOLS|\n")) ⟨0⟩ {}).2.lines.toList =
      shown.map (fun p => String.ofList p.line) ∧ ¬ Aligned shown :=
  ⟨by decide +kernel, fun h => absurd ((aligned_iff (by decide)).1 h) (by decide)⟩

end Engine

end Stencil
