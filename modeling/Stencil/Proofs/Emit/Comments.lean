import Stencil.Proofs.Emit.Aligned

/-!
# Comments

A call for a comment puts its parameters on a comment line in place of the line (`Backend.remark`),
in whichever pass it is met. Like any value, that line is cut at line feeds when it is written. The
parameters have none when the call has none. But an earlier pass may have put a value of several
lines into the call, and then what follows the first line feed is written as it stands: it is a
comment only if it happens to be one itself (`comment_lines_iff`).
-/

namespace Stencil

open Text

/-! ## Parameters on one line -/

namespace Token

theorem mem_escape_of_mem {cs : List Char} {c : Char} (hc : c ∈ cs) : c ∈ escape cs := by
  refine List.mem_flatMap.2 ⟨c, hc, ?_⟩
  split
  · next h => exact h ▸ List.mem_cons_of_mem _ List.mem_cons_self
  · exact List.mem_cons_self

/-- The parameters of a call without a line feed have none. -/
theorem params_unbroken {t : Token} (ht : '\n' ∉ t.source) : ∀ p ∈ t.params, Unbroken p := by
  have hof {part : List Char} (hpart : ∀ c ∈ part, c ∈ t.source) : Unbroken (String.ofList part) :=
    unbroken_ofList.2 fun h => ht (hpart _ h)
  intro p hp
  rcases t with ⟨m, spelled, call⟩
  cases call with
  | pipe ps =>
    obtain ⟨q, hq, rfl⟩ := List.mem_map.1 hp
    refine hof fun c hc => List.mem_append_right _ (List.mem_flatten.2 ⟨segment q, ?_, ?_⟩)
    · exact List.mem_map_of_mem hq
    · exact List.mem_append_left _ (mem_escape_of_mem hc)
  | paren inner closed =>
    obtain ⟨q, hq, rfl⟩ := List.mem_map.1 hp
    refine hof fun c hc => ?_
    have hinner : c ∈ inner := by
      rw [parenParams] at hq
      split at hq
      · cases hq
      · obtain ⟨part, hpart, rfl⟩ := List.mem_map.1 hq
        exact mem_of_mem_splitOnP hpart (mem_of_mem_dropBlanks hc)
    simp [source, head, hinner]
  | directive guard payload =>
    rcases List.mem_cons.1 hp with rfl | hp
    · refine hof fun c hc => ?_
      simp [source, head, segment, mem_escape_of_mem hc]
    · rw [List.mem_singleton.1 hp]
      refine hof fun c hc => ?_
      simp [source, tail, hc]

/-- A token in a text has no line feed where the text has none. -/
theorem source_unbroken {text : List Char} {left right : List Piece} {t : Token}
    (hpieces : pieces text = left ++ .token t :: right) (htext : '\n' ∉ text) :
    '\n' ∉ t.source := by
  intro h
  apply htext
  rw [← flatten_pieces text, hpieces]
  simp [Piece.source, h]

end Token

/-- The text of a comment: the parameters, without blanks at the end. -/
def commentText (ps : List String) : String := trimEnd (" ".intercalate ps)

theorem commentText_unbroken {ps : List String} (hps : ∀ p ∈ ps, Unbroken p) :
    Unbroken (commentText ps) := (unbroken_intercalate (by decide) hps).trimEnd

/-! ## The lines of a text behind another one -/

/-- What stands in front of a text, on one line, stands in front of its first line. -/
theorem Engine.valueLines_append {cs : List Char} (hcs : '\n' ∉ cs)
    (hreturn : cs.getLast? ≠ some '\r') (ds : List Char) : ∃ first,
    cs <+: first.toList ∧ valueLines (cs ++ ds) = first :: (valueLines ds).tail := by
  obtain ⟨tail, below, -, hsplit⟩ := exists_firstPart ds
  have hds := hsplit [] List.not_mem_nil
  rw [List.nil_append, List.nil_append] at hds
  refine ⟨String.ofList (dropLastIf '\r' (cs ++ tail)), ?_, ?_⟩
  · rw [String.toList_ofList]
    exact isPrefix_dropLastIf hreturn tail
  · rw [valueLines, valueLines, hsplit cs hcs, hds]
    rfl

/-! ## The comments of the backends -/

namespace Backend

/-- The trigger of comments. -/
def comment : Backend → Trigger
  | cobol => Cobol.comment
  | java => Java.comment

theorem find?_comment (b : Backend) : b.registry.find? "CMNT" = some b.comment := by
  cases b <;> rfl

theorem comment_replacesLine (b : Backend) : b.comment.replacesLine = true := by cases b <;> rfl

/-- What a comment opens with at a column. -/
def opening : Backend → Nat → String
  | cobol, _ => Cobol.commentStart
  | java, column => spaces column ++ "//"

/-- A comment at a column. -/
def remark (b : Backend) (column : Nat) (text : String) : String :=
  b.opening column ++ if text = "" then "" else " " ++ text

/-- The line is a comment. -/
def IsComment : Backend → String → Prop
  | cobol, line => Cobol.commentStart.toList <+: line.toList
  | java, line => ['/', '/'] <+: line.toList.dropWhile (· == ' ')

instance (b : Backend) (line : String) : Decidable (b.IsComment line) :=
  match b with
  | cobol => inferInstanceAs (Decidable (_ <+: _))
  | java => inferInstanceAs (Decidable (_ <+: _))

theorem isComment_of_opening {b : Backend} {column : Nat} {line : String}
    (h : (b.opening column).toList <+: line.toList) : b.IsComment line := by
  cases b with
  | cobol => exact h
  | java =>
    obtain ⟨rest, hrest⟩ := h
    refine ⟨rest, ?_⟩
    rw [← hrest, opening, String.toList_append, spaces, String.toList_ofList, List.append_assoc,
      List.dropWhile_append_of_pos (by simp)]
    rfl

theorem opening_unbroken (b : Backend) (column : Nat) : Unbroken (b.opening column) := by
  cases b with
  | cobol => exact (by decide : Unbroken Cobol.commentStart)
  | java => simp +decide [opening]

theorem opening_getLast? (b : Backend) (column : Nat) :
    (b.opening column).toList.getLast? ≠ some '\r' := by
  cases b with
  | cobol => exact (by decide : Cobol.commentStart.toList.getLast? ≠ some '\r')
  | java => simp [opening, String.toList_append]

theorem remark_isEmpty (b : Backend) (column : Nat) (text : String) :
    (b.remark column text).isEmpty = false := by
  rw [Bool.eq_false_iff]
  intro hempty
  have hopening := congrArg String.toList (String.isEmpty_iff.1 hempty)
  rw [remark, String.toList_append, String.toList_empty, List.append_eq_nil_iff] at hopening
  cases b with
  | cobol => exact (by decide : Cobol.commentStart.toList ≠ []) hopening.1
  | java =>
    rw [opening, String.toList_append, List.append_eq_nil_iff] at hopening
    cases hopening.1.2

/-- Of the lines of a comment the first one is a comment, and the others are those of its text. -/
theorem valueLines_remark (b : Backend) (column : Nat) (text : String) : ∃ first,
    b.IsComment first ∧
      Engine.valueLines (b.remark column text).toList =
        first :: (Engine.valueLines text.toList).tail := by
  rw [remark]
  -- the space behind the opening belongs to what stands in front of the text, if there is one
  split
  · next htext =>
    obtain ⟨first, hfirst, hlines⟩ := Engine.valueLines_append (b.opening_unbroken column)
      (b.opening_getLast? column) []
    refine ⟨first, isComment_of_opening hfirst, ?_⟩
    rw [String.toList_append, htext]
    exact hlines
  · have hspaced : (b.opening column ++ " ").toList.getLast? ≠ some '\r' := by
      simp [String.toList_append]
    have hunbroken : Unbroken (b.opening column ++ " ") := by
      simp +decide [b.opening_unbroken column]
    obtain ⟨first, hfirst, hlines⟩ := Engine.valueLines_append hunbroken hspaced text.toList
    have hopening : (b.opening column).toList <+: (b.opening column ++ " ").toList := by
      rw [String.toList_append]
      exact List.prefix_append _ _
    refine ⟨first, isComment_of_opening (hopening.trans hfirst), ?_⟩
    rw [← hlines, String.toList_append, String.toList_append, String.toList_append,
      List.append_assoc]

end Backend

namespace Engine

variable {e : Engine} {sub : Sub} {u : Run}

/-- The run in which the trigger for a token has been called: the context does not show the token
any more. -/
def called (column : Nat) (t : Token) (r : Run) : Run :=
  (showing column t none r).mapContext fun c => { c with token := none }

/-- A call for a comment gives a comment at the column of the token. -/
theorem resolveToken_comment (b : Backend) (hlive : u.current < u.arena.size) (column : Nat)
    (t : Token) : resolveToken e sub column t b.comment u =
      (.ok (some (b.remark column (commentText t.params))), called column t u) := by
  have hvalue : perform e sub (b.comment.resolve t.params) (showing column t none u) =
      (.ok (some (b.remark column (commentText t.params))), showing column t none u) := by
    cases b with
    | cobol =>
      show (Except.ok (some (Cobol.commentLine (commentText t.params))), _) = _
      rw [Cobol.commentLine, Backend.remark]
      split
      · rw [String.append_empty]
        rfl
      · rw [← String.append_assoc]
        rfl
    | java =>
      show (Except.ok (some (spaces (showing column t none u).context.column ++
        if commentText t.params = "" then "//" else "// " ++ commentText t.params)), _) = _
      rw [showing_column hlive, Backend.remark]
      split
      · rw [String.append_empty]
        rfl
      · rw [Backend.opening, String.append_assoc, ← @String.append_assoc "//"]
        rfl
  have hmax : b.comment.maxParams = none := by cases b <;> rfl
  rw [resolveToken, Effect.modify_bind, hmax, Token.paramsUpTo_none]
  change (perform e sub (b.comment.resolve t.params) >>= _) (showing column t none u) = _
  rw [Effect.bind_eq, hvalue]
  rfl

/-- **Which lines of a comment are comments.** Let a pass over a line, be it the first or a later
one, meet a call for a comment, and no token that replaces the line in front of it. When the tokens
in front have been taken up, the call gives its parameters as a comment at its column, which is
written in place of the line and of what the passes before have made of it. The first line that is
written is a comment. The others are those of the text of the parameters, as they are: so all of
them are comments just if those are. There are no others when the call has no line feed, as it has
none in a text without one. -/
theorem comment_lines_iff (b : Backend) (e : Engine) (hregistry : e.registry = b.registry)
    (room : Nat) (line : Line) (r s : Run) (text : List Char) (left right : List Piece) (t : Token)
    (hlive : r.current < r.arena.size)
    (hpass : PassOver e (call e room) e.limits.passes line.text.toList r text s)
    (hpieces : pieces text = left ++ .token t :: right) (hleft : ¬ Replacing e left)
    (hname : t.name = "CMNT") :
    let lines := valueLines (b.remark (columnBehind 0 left) (commentText t.params)).toList
    processLine e (call e room) line r =
        ((columns 0 left).mapM (takeUp e (call e room)) >>= fun _ => do
          modify (called (columnBehind 0 left) t)
          writeLines lines) (counted s) ∧
      (∃ first, b.IsComment first ∧
        lines = first :: (valueLines (commentText t.params).toList).tail) ∧
      ((∀ l ∈ lines, b.IsComment l) ↔
        ∀ l ∈ (valueLines (commentText t.params).toList).tail, b.IsComment l) ∧
      ('\n' ∉ t.source → ∃ first, b.IsComment first ∧ lines = [first]) ∧
      ('\n' ∉ text → '\n' ∉ t.source) := by
  intro lines
  have hfound : e.registry.find? t.name = some b.comment := by
    rw [hregistry, hname, b.find?_comment]
  have hne := b.remark_isEmpty (columnBehind 0 left) (commentText t.params)
  obtain ⟨first, hfirst, hlines⟩ := b.valueLines_remark (columnBehind 0 left) (commentText t.params)
  have hlines : lines = first :: (valueLines (commentText t.params).toList).tail := hlines
  refine ⟨?_, ⟨first, hfirst, hlines⟩, ?_, fun ht => ⟨first, hfirst, ?_⟩,
    Token.source_unbroken hpieces⟩
  · rw [processLine_replacing hpass hpieces hleft hfound b.comment_replacesLine]
    simp only [takeUpTo, bind_assoc]
    rw [Effect.bind_eq, Effect.bind_eq]
    -- where a token in front fails, the line fails with it on both sides
    rcases htaken : (columns 0 left).mapM (takeUp e (call e room)) (counted s) with
      ⟨err | replies, u⟩
    · rfl
    · have hliveTaken := hpass.live_taken (call_does e room) hlive htaken
      simp only [Effect.bind_eq, resolveToken_comment b hliveTaken, replacementLines, hne]
      rfl
  · rw [hlines, List.forall_mem_cons]
    exact and_iff_right hfirst
  · have hunbroken : '\n' ∉ (commentText t.params).toList :=
      commentText_unbroken (Token.params_unbroken ht)
    rw [hlines, valueLines, List.splitOn_eq_singleton hunbroken]
    rfl

/-- A line in which the first pass makes a call for a comment, with a column list in it. -/
def listedComment : Line := ⟨1, "&CMNT&SETLINK|LK||columns &SELCOLS||"⟩

/-- The second pass meets the call. The first column stands on a comment line, the second one on a
line that is none. -/
theorem listedComment_lines :
    let r := listing.begin listingRequest ⟨0⟩ {}
    let s := (pass listing (call listing 0) listedComment.text.toList r).2
    let text := "&CMNT|columns ID,\n                          AMT|".toList
    let body := "columns ID,\n                          AMT"
    let lines := valueLines (Backend.cobol.remark 0 body).toList
    PassOver listing (call listing 0) listing.limits.passes listedComment.text.toList r text s ∧
      processLine listing (call listing 0) listedComment r =
        (([] : List (Nat × Token)).mapM (takeUp listing (call listing 0)) >>= fun _ => do
          modify (called 0 ⟨'&', "CMNT".toList, .pipe [body.toList]⟩)
          writeLines lines) (counted s) ∧
      ¬ ∀ l ∈ lines, Backend.cobol.IsComment l := by
  intro r s text body lines
  have hcarries : carriesMacros text = true := by decide +kernel
  have hfirst : pass listing (call listing 0) listedComment.text.toList r =
      (.ok (.rewritten text 2), s) := Effect.eq_ok_of_fst (by decide +kernel)
  have hpass : PassOver listing (call listing 0) listing.limits.passes listedComment.text.toList r
      text s := .later (by decide +kernel) hfirst (.first hcarries)
  have hbody : commentText [body] = body := by decide +kernel
  obtain ⟨hline, -, hall, -⟩ := comment_lines_iff .cobol listing rfl 0 listedComment r s text [] []
    ⟨'&', "CMNT".toList, .pipe [body.toList]⟩ (begin_live _ _ _ _) hpass (by decide +kernel)
    not_replacing_nil (by decide +kernel)
  have hparams : Token.params ⟨'&', "CMNT".toList, .pipe [body.toList]⟩ = [body] := by
    decide +kernel
  rw [hparams, hbody] at hline hall
  refine ⟨hpass, hline, fun h => ?_⟩
  exact absurd (hall.1 h) (by decide +kernel)

/-- A value of several lines in a comment is written as code. -/
theorem listedComment_code :
    let inJava := { listing with registry := Backend.java.registry }
    let members := Source.ofText "&CMNT&SETLINK|LK||members &FIELDS||"
    (listing.run listingRequest (.ofText listedComment.text) ⟨0⟩ {}).2.lines.toList =
        ["      * columns ID,", "                          AMT"] ∧
      ¬ Backend.cobol.IsComment "                          AMT" ∧
      (inJava.run listingRequest members ⟨0⟩ {}).2.lines.toList =
        ["// members private String id;", "                          private String amt;"] ∧
      ¬ Backend.java.IsComment "                          private String amt;" := by
  decide +kernel

end Engine

end Stencil
