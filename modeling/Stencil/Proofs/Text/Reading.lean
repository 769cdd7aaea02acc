import Mathlib.Data.List.Forall2
import Stencil.Proofs.Text.Breaks
import Stencil.Proofs.Text.Invalid

/-!
# Lines of bytes and of characters

`Broken` cuts a list at its line feeds and says of each line how it ends; the lines are those of
`breakLines` (`Broken.lines`), and with their endings they give the list back (`Broken.whole`). Both
line feed and carriage return are ASCII, so that neither can be part of a longer character or of an
invalid part: a byte list is cut in the same places before it is read and after (`Broken.decoded`).
The lines that a template delivers are therefore those of its text, however it is damaged
(`Source.ofBytes_lines`).
-/

namespace Stencil

/-- How a line ends. -/
inductive Ending where
  /-- With a line feed. -/
  | feed
  /-- With a carriage return and a line feed. -/
  | returnFeed
  /-- With the text. -/
  | textEnd
deriving DecidableEq, Repr

/-- What stands behind the line, given line feed and carriage return. -/
def Ending.units {α : Type} (lf cr : α) : Ending → List α
  | feed => [lf]
  | returnFeed => [cr, lf]
  | textEnd => []

@[simp]
theorem Ending.units_feed {α : Type} (lf cr : α) : feed.units lf cr = [lf] := rfl

@[simp]
theorem Ending.units_returnFeed {α : Type} (lf cr : α) : returnFeed.units lf cr = [cr, lf] := rfl

@[simp]
theorem Ending.units_textEnd {α : Type} (lf cr : α) : textEnd.units lf cr = [] := rfl

/-- A list cut at its line feeds. A carriage return in front of a line feed belongs to the ending
with it. What follows the last line feed is a line when there is something. -/
inductive Broken {α : Type} (lf cr : α) : List α → List (List α × Ending) → Prop
  | nil : Broken lf cr [] []
  | last {line : List α} (hline : lf ∉ line) (hne : line ≠ []) :
      Broken lf cr line [(line, .textEnd)]
  | feed {line rest : List α} {ls : List (List α × Ending)} (hline : lf ∉ line)
      (hreturn : line.getLast? ≠ some cr) (hrest : Broken lf cr rest ls) :
      Broken lf cr (line ++ lf :: rest) ((line, .feed) :: ls)
  | returnFeed {line rest : List α} {ls : List (List α × Ending)} (hline : lf ∉ line)
      (hrest : Broken lf cr rest ls) :
      Broken lf cr (line ++ cr :: lf :: rest) ((line, .returnFeed) :: ls)

namespace Broken

variable {α : Type} {lf cr : α} {cs part rest : List α} {ls ls' : List (List α × Ending)}

/-- Lines and endings one after the other are the whole. -/
theorem whole (h : Broken lf cr cs ls) : cs = ls.flatMap fun l => l.1 ++ l.2.units lf cr := by
  induction h with
  | nil => rfl
  | last => simp
  | feed _ _ _ ih => simp [← ih]
  | returnFeed _ _ ih => simp [← ih]

variable [DecidableEq α]

/-- The line in front of a line feed, and its ending. -/
def ended (cr : α) (part : List α) : List α × Ending :=
  (dropLastIf cr part, if part.getLast? = some cr then .returnFeed else .feed)

/-- What stands in front of the first line feed, and what behind it. -/
theorem append_inj {line rest' : List α} (hpart : lf ∉ part) (hline : lf ∉ line)
    (h : part ++ lf :: rest = line ++ lf :: rest') : part = line ∧ rest = rest' := by
  have hsplit := congrArg (List.splitOn lf) h
  rw [List.splitOn_append_cons_self_of_not_mem hpart,
    List.splitOn_append_cons_self_of_not_mem hline] at hsplit
  obtain rfl := (List.cons.inj hsplit).1
  exact ⟨rfl, (List.cons.inj (List.append_cancel_left h)).2⟩

/-- In front of the first line feed there is one line, and behind it are the others. -/
theorem of_append (hcr : cr ≠ lf) (hpart : lf ∉ part) (h : Broken lf cr (part ++ lf :: rest) ls) :
    ∃ ls', Broken lf cr rest ls' ∧ ls = ended cr part :: ls' := by
  generalize hcs : part ++ lf :: rest = cs at h
  cases h with
  | nil => simp at hcs
  | last hline => exact absurd (hcs ▸ by simp) hline
  | feed hline hreturn hrest =>
    obtain ⟨rfl, rfl⟩ := append_inj hpart hline hcs
    exact ⟨_, hrest, by rw [ended, dropLastIf_of_ne hreturn, if_neg hreturn]⟩
  | @returnFeed line rest' ls hline hrest =>
    have hreturn : lf ∉ line ++ [cr] := by simp [hline, Ne.symm hcr]
    have hcs' : part ++ lf :: rest = (line ++ [cr]) ++ lf :: rest' := by simpa using hcs
    obtain ⟨rfl, rfl⟩ := append_inj hpart hreturn hcs'
    exact ⟨_, hrest, by simp [ended, dropLastIf]⟩

/-- There is one way to cut a list, -/
theorem unique (hcr : cr ≠ lf) (h : Broken lf cr cs ls) (h' : Broken lf cr cs ls') : ls' = ls := by
  induction h generalizing ls' with
  | nil =>
    generalize hcs : ([] : List α) = cs at h'
    cases h' with
    | nil => rfl
    | last _ hne => exact absurd hcs.symm hne
    | feed => simp at hcs
    | returnFeed => simp at hcs
  | last hline hne =>
    cases h' with
    | nil => exact absurd rfl hne
    | last => rfl
    | feed => simp at hline
    | returnFeed => simp at hline
  | feed hline hreturn _ ih =>
    obtain ⟨rest, hrest, rfl⟩ := of_append hcr hline h'
    rw [ih hrest, ended, dropLastIf_of_ne hreturn, if_neg hreturn]
  | @returnFeed line rest ls hline _ ih =>
    have hreturn : lf ∉ line ++ [cr] := by simp [hline, Ne.symm hcr]
    obtain ⟨rest, hrest, rfl⟩ := of_append hcr hreturn (by simpa using h')
    rw [ih hrest]
    simp [ended, dropLastIf]

/-- and every list can be cut. -/
theorem exists_broken (lf cr : α) (cs : List α) : ∃ ls, Broken lf cr cs ls := by
  by_cases hlf : lf ∈ cs
  · obtain ⟨part, rest, rfl, hpart⟩ := List.eq_append_cons_of_mem hlf
    obtain ⟨ls, hrest⟩ := exists_broken lf cr rest
    by_cases hreturn : part.getLast? = some cr
    · obtain ⟨line, rfl⟩ := List.getLast?_eq_some_iff.1 hreturn
      rw [List.append_assoc, List.singleton_append]
      exact ⟨_, .returnFeed (fun h => hpart (List.mem_append_left _ h)) hrest⟩
    · exact ⟨_, .feed hpart hreturn hrest⟩
  · by_cases hne : cs = []
    · exact ⟨[], hne ▸ .nil⟩
    · exact ⟨_, .last hlf hne⟩
termination_by cs.length
decreasing_by
  subst_vars
  simp only [List.length_append, List.length_cons]
  omega

/-- The lines of a list that begins with a line. -/
theorem breakLines_append (hpart : lf ∉ part) :
    breakLines lf cr (part ++ lf :: rest) = dropLastIf cr part :: breakLines lf cr rest := by
  have hne := List.splitOn_ne_nil lf rest
  rw [breakLines, breakLines, List.splitOn_append_cons_self_of_not_mem hpart]
  rw [List.dropLast_cons_of_ne_nil hne, List.getLast?_cons_of_ne_nil hne, List.map_cons,
    List.cons_append]

/-- The lines are those that are delivered. -/
theorem lines (hcr : cr ≠ lf) (h : Broken lf cr cs ls) : breakLines lf cr cs = ls.map (·.1) := by
  induction h with
  | nil => rfl
  | @last line hline hne =>
    rw [breakLines, List.splitOn_eq_singleton hline]
    obtain ⟨c, cs, rfl⟩ := List.exists_cons_of_ne_nil hne
    rfl
  | feed hline hreturn _ ih =>
    rw [breakLines_append hline, dropLastIf_of_ne hreturn, ih, List.map_cons]
  | @returnFeed line rest ls hline _ ih =>
    have hreturn : lf ∉ line ++ [cr] := by simp [hline, Ne.symm hcr]
    have hcut : breakLines lf cr ((line ++ [cr]) ++ lf :: rest) = _ := breakLines_append hreturn
    rw [ih, dropLastIf, if_pos List.getLast?_concat, List.dropLast_concat, List.append_assoc,
      List.singleton_append] at hcut
    rw [hcut, List.map_cons]

end Broken

/-! ## Lines of bytes, read -/

namespace Text

variable {bs rest : Bytes} {b : UInt8}

/-- What was read as a text, each invalid part as one U+FFFD. -/
def shown (os : List (Option Char)) : String := String.ofList (os.map (·.getD '\uFFFD'))

theorem Reads.decodeLossy_eq {os : List (Option Char)} (h : Reads bs os) :
    decodeLossy bs = shown os := by
  rw [reads_iff.1 h]
  rfl

/-- What stands on the two sides of an ASCII character is shown by itself. -/
theorem toList_decodeLossy_append (hb : b.toNat < 0x80) (bs rest : Bytes) :
    (decodeLossy (bs ++ b :: rest)).toList =
      (decodeLossy bs).toList ++ Char.ofNat b.toNat :: (decodeLossy rest).toList := by
  have hread : Reads (bs ++ b :: rest) _ := (reads_iff.2 rfl).append_ascii hb (reads_iff.2 rfl)
  rw [hread.decodeLossy_eq, shown, decodeLossy, decodeLossy]
  simp

theorem decodeLossy_ne_nil (h : bs ≠ []) : (decodeLossy bs).toList ≠ [] := by
  have hread : Reads bs (decode bs) := reads_iff.2 rfl
  rw [decodeLossy, String.toList_ofList]
  exact fun hnil => h (hread.eq_nil_iff.1 (List.map_eq_nil_iff.1 hnil))

/-- A carriage return is shown at the end where its byte stands there. -/
theorem getLast?_of_decodeLossy (h : (decodeLossy bs).toList.getLast? = some '\r') :
    bs.getLast? = some 13 := by
  rw [decodeLossy, String.toList_ofList, List.getLast?_map] at h
  obtain ⟨o, hlast, ho⟩ := Option.map_eq_some_iff.1 h
  cases o with
  | none => exact absurd ho (by decide)
  | some c =>
    obtain rfl : c = '\r' := ho
    have hread : Reads bs (decode bs) := reads_iff.2 rfl
    obtain ⟨front, rfl⟩ := hread.ends_in hlast
    have hcode : String.utf8EncodeChar '\r' = [13] := by decide
    rw [hcode, List.getLast?_concat]

end Text

open Text

/-- A byte list is cut in the same places before it is read and after. -/
theorem Broken.decoded {bs : Bytes} {ls : List (Bytes × Ending)} (h : Broken 10 13 bs ls) :
    Broken '\n' '\r' (decodeLossy bs).toList
      (ls.map fun l => ((decodeLossy l.1).toList, l.2)) := by
  have hfeed : (10 : UInt8).toNat < 0x80 := by decide
  have hreturn : (13 : UInt8).toNat < 0x80 := by decide
  induction h with
  | nil => exact .nil
  | last hline hne => exact .last (decodeLossy_not_lf hline) (decodeLossy_ne_nil hne)
  | feed hline hlast _ ih =>
    rw [toList_decodeLossy_append hfeed]
    exact .feed (decodeLossy_not_lf hline) (fun h => hlast (getLast?_of_decodeLossy h)) ih
  | returnFeed hline _ ih =>
    rw [toList_decodeLossy_append hreturn, ← List.nil_append (10 :: _),
      toList_decodeLossy_append hfeed]
    exact .returnFeed (decodeLossy_not_lf hline) ih

/-- What stands behind a line of text. -/
def Ending.text (e : Ending) : String := String.ofList (e.units '\n' '\r')

namespace Source

variable {bs : Bytes} {ls : List (Bytes × Ending)}

theorem numbered_numbers (n : Nat) (texts : List String) :
    (Line.numbered n texts).map (·.number) = List.range' n texts.length := by
  induction texts generalizing n with
  | nil => rfl
  | cons t ts ih => rw [Line.numbered, List.map_cons, ih, List.length_cons, List.range'_succ]

theorem ofBytes_eq (h : Broken 10 13 bs ls) :
    ofBytes bs = ⟨Line.numbered 1 (ls.map fun l => decodeLossy l.1), none⟩ := by
  rw [ofBytes, h.lines (by decide), List.map_map]
  rfl

/-- Cutting and reading may change places. -/
theorem ofText_decodeLossy (bs : Bytes) : ofText (decodeLossy bs) = ofBytes bs := by
  obtain ⟨ls, h⟩ := Broken.exists_broken 10 13 bs
  rw [ofBytes_eq h, ofText, h.decoded.lines (by decide), List.map_map, List.map_map]
  simp [Function.comp_def]

theorem lines_texts (h : Broken 10 13 bs ls) :
    (ofBytes bs).lines.map (·.text) = ls.map fun l => decodeLossy l.1 := by
  rw [ofBytes_eq h, Line.map_text_numbered]

/-- No line that is delivered has a line feed. -/
theorem lines_unbroken {line : Line} (hline : line ∈ (ofBytes bs).lines) :
    Unbroken line.text := by
  have htext : line.text ∈ (ofBytes bs).lines.map (·.text) := List.mem_map_of_mem hline
  rw [ofBytes, Line.map_text_numbered] at htext
  obtain ⟨piece, hpiece, heq⟩ := List.mem_map.1 htext
  rw [← heq]
  exact decodeLossy_not_lf (not_mem_of_mem_breakLines hpiece)

/-- A text is made of its lines and their endings. -/
theorem join_lines {s : String} (h : Broken 10 13 (encode s) ls) :
    String.join (List.zipWith (fun line piece => line.text ++ piece.2.text)
      (ofBytes (encode s)).lines ls) = s := by
  have hzip : List.zipWith (fun t piece => t ++ piece.2.text)
      ((ofBytes (encode s)).lines.map (·.text)) ls =
        List.zipWith (fun line piece => line.text ++ piece.2.text) (ofBytes (encode s)).lines ls :=
    List.zipWith_map_left
  rw [lines_texts h, List.zipWith_map_left, List.zipWith_self] at hzip
  have hwhole := h.decoded.whole
  rw [decodeLossy_encode, List.flatMap_map] at hwhole
  rw [← hzip, ← String.toList_inj, hwhole, String.toList_join, List.flatMap_map]
  simp [Ending.text]

/-- **The lines of a byte list.** There is one way to cut it at its line feeds, a carriage return in
front of a line feed being part of the ending, and nothing being a line behind the last line feed
where nothing stands. The lines delivered are the pieces, numbered from 1 on, each with the
characters that it is read as and one U+FFFD for every invalid part. They are those of the bytes of
the text that the whole list is read as. No line has a line feed, and when the bytes are those of a
text, the lines with their endings are this text. -/
theorem ofBytes_lines (bs : Bytes) :
    ∃ ls, (∀ ls', Broken 10 13 bs ls' ↔ ls' = ls) ∧
      (ofBytes bs).failure = none ∧
      (ofBytes bs).lines.map (·.number) = List.range' 1 ls.length ∧
      List.Forall₂ (fun piece line => ∃ os, Reads piece.1 os ∧ line.text = shown os) ls
        (ofBytes bs).lines ∧
      (∃ os, Reads bs os ∧ ofBytes bs = ofBytes (encode (shown os))) ∧
      (∀ line ∈ (ofBytes bs).lines, Unbroken line.text) ∧
      ∀ s, bs = encode s → s = String.join
        (List.zipWith (fun line piece => line.text ++ piece.2.text) (ofBytes bs).lines ls) := by
  obtain ⟨ls, h⟩ := Broken.exists_broken 10 13 bs
  have hunique (ls') : Broken 10 13 bs ls' ↔ ls' = ls := by
    refine ⟨fun h' => Broken.unique (by decide) h h', ?_⟩
    rintro rfl
    exact h
  have hnumbers : (ofBytes bs).lines.map (·.number) = List.range' 1 ls.length := by
    rw [ofBytes_eq h, numbered_numbers, List.length_map]
  have hread : List.Forall₂ (fun piece line => ∃ os, Reads piece.1 os ∧ line.text = shown os) ls
      (ofBytes bs).lines := by
    have hsame : List.Forall₂ (· = ·) (ls.map fun l => decodeLossy l.1)
        ((ofBytes bs).lines.map (·.text)) := by
      rw [lines_texts h, List.forall₂_eq_eq_eq]
    rw [List.forall₂_map_left_iff, List.forall₂_map_right_iff] at hsame
    exact hsame.imp fun piece line heq => ⟨decode piece.1, reads_iff.2 rfl, heq.symm⟩
  have hwhole : ofBytes bs = ofBytes (encode (shown (decode bs))) := by
    rw [ofBytes_encode]
    exact (ofText_decodeLossy bs).symm
  refine ⟨ls, hunique, by rw [ofBytes_eq h], hnumbers, hread, ⟨_, reads_iff.2 rfl, hwhole⟩,
    fun _ => lines_unbroken, ?_⟩
  rintro s rfl
  exact (join_lines h).symm

/-- A character that breaks off in front of a line ending, and one at the end. -/
example : (ofBytes [0x41, 0xE2, 0x82, 0x0D, 0x0A, 0xC9]).lines.map (·.text) =
    ["A\uFFFD", "\uFFFD"] := by
  decide +kernel

end Source

end Stencil
