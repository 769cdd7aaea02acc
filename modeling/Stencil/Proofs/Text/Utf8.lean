import Stencil.Proofs.Lines

/-!
# Reading what was encoded

The bytes of a text are read as this text (`decodeLossy_encode`, `decodeStrict_encode`). They hold a
line feed where the text does, so that it makes no difference whether a text is cut into lines
before it is stored or after (`Source.ofBytes_encode`). Whatever bytes are read, a line feed comes
of its own byte only (`decodeLossy_not_lf`).
-/

namespace Stencil.Text

deriving instance DecidableEq for Pending

/-- What the bytes read so far may still become is a character beyond the line feed. -/
def Pending.Late (p : Pending) : Prop := 10 < p.bits * 64 + (p.low.toNat - 0x80)

namespace Utf8

variable {n k m bits more : Nat} {low high b : UInt8} {bs : Bytes}

theorem toNat_ofNat (h : n < 256) : (UInt8.ofNat n).toNat = n := by
  rw [UInt8.toNat_ofNat', Nat.mod_eq_of_lt h]

/-! ## One character -/

theorem decodeFrom_none_cons (b : UInt8) (bs : Bytes) :
    decodeFrom none (b :: bs) = (start b).1 ++ decodeFrom (start b).2 bs := rfl

/-- A character of one byte. -/
theorem start_one (h : n < 0x80) : start (UInt8.ofNat n) = ([some (Char.ofNat n)], none) := by
  have hn : (UInt8.ofNat n).toNat = n := toNat_ofNat (by omega)
  rw [start, if_pos (UInt8.lt_iff_toNat_lt.2 (hn.symm ▸ h)), hn]

/-- The first byte of a character of two. -/
theorem start_two : ∀ k < 0x20, 2 ≤ k →
    start (UInt8.ofNat (k + 0xC0)) = ([], some ⟨0x80, 0xBF, 0, k⟩) := by
  decide

/-- The first byte of a character of three. -/
theorem start_three : ∀ k < 0x10, start (UInt8.ofNat (k + 0xE0)) =
    ([], some ⟨if k = 0 then 0xA0 else 0x80, if k = 13 then 0x9F else 0xBF, 1, k⟩) := by
  decide

/-- The first byte of a character of four. -/
theorem start_four : ∀ k ≤ 4, start (UInt8.ofNat (k + 0xF0)) =
    ([], some ⟨if k = 0 then 0x90 else 0x80, if k = 4 then 0x8F else 0xBF, 2, k⟩) := by
  decide

/-- A byte may continue a character when its six low bits do. -/
theorem continues (hm : m < 64) (hlow : low.toNat ≤ m + 0x80) (hhigh : m + 0x80 ≤ high.toNat) :
    (UInt8.ofNat (m + 0x80)).toNat = m + 0x80 ∧
      (low ≤ UInt8.ofNat (m + 0x80) ∧ UInt8.ofNat (m + 0x80) ≤ high) := by
  have hb : (UInt8.ofNat (m + 0x80)).toNat = m + 0x80 := toNat_ofNat (by omega)
  rw [UInt8.le_iff_toNat_le, UInt8.le_iff_toNat_le, hb]
  exact ⟨rfl, hlow, hhigh⟩

/-- The last byte of a character. -/
theorem decodeFrom_last (hm : m < 64) (hlow : low.toNat ≤ m + 0x80) (hhigh : m + 0x80 ≤ high.toNat)
    (bs : Bytes) : decodeFrom (some ⟨low, high, 0, bits⟩) (UInt8.ofNat (m + 0x80) :: bs) =
      some (Char.ofNat (bits * 64 + m)) :: decodeFrom none bs := by
  obtain ⟨hb, hbounds⟩ := continues hm hlow hhigh
  rw [decodeFrom, step, if_pos hbounds, hb, Nat.add_sub_cancel]
  rfl

/-- A byte in the middle of a character. -/
theorem decodeFrom_middle (hm : m < 64) (hlow : low.toNat ≤ m + 0x80)
    (hhigh : m + 0x80 ≤ high.toNat) (bs : Bytes) :
    decodeFrom (some ⟨low, high, more + 1, bits⟩) (UInt8.ofNat (m + 0x80) :: bs) =
      decodeFrom (some ⟨0x80, 0xBF, more, bits * 64 + m⟩) bs := by
  obtain ⟨hb, hbounds⟩ := continues hm hlow hhigh
  rw [decodeFrom, step, if_pos hbounds, hb, Nat.add_sub_cancel]
  rfl

/-- The bytes of a character are read as this character. -/
theorem decodeFrom_encodeChar (c : Char) (bs : Bytes) :
    decodeFrom none (String.utf8EncodeChar c ++ bs) = some c :: decodeFrom none bs := by
  have hvalid : c.val.toNat < 0xD800 ∨ 0xDFFF < c.val.toNat ∧ c.val.toNat < 0x110000 := c.valid
  have hc : Char.ofNat c.val.toNat = c := Char.ofNat_toNat c
  have hmiddle (n : Nat) : (0x80 : UInt8).toNat ≤ n % 64 + 0x80 ∧
      n % 64 + 0x80 ≤ (0xBF : UInt8).toNat := by simp; omega
  unfold String.utf8EncodeChar
  generalize c.val.toNat = v at hvalid hc
  dsimp only
  split
  · rw [List.singleton_append, decodeFrom_none_cons, start_one (by omega), hc]
    rfl
  · split
    · have hbits : v / 64 % 32 * 64 + v % 64 = v := by omega
      rw [List.cons_append, decodeFrom_none_cons, start_two _ (by omega) (by omega),
        List.nil_append, List.singleton_append,
        decodeFrom_last (by omega) (hmiddle v).1 (hmiddle v).2, hbits, hc]
    · split
      · have hbits : (v / 4096 % 16 * 64 + v / 64 % 64) * 64 + v % 64 = v := by omega
        rw [List.cons_append, decodeFrom_none_cons, start_three _ (by omega), List.nil_append,
          List.cons_append, decodeFrom_middle (by omega) (by split <;> simp; omega)
            (by split <;> simp <;> omega), List.singleton_append,
          decodeFrom_last (by omega) (hmiddle v).1 (hmiddle v).2, hbits, hc]
      · have hbits : ((v / 262144 % 8 * 64 + v / 4096 % 64) * 64 + v / 64 % 64) * 64 + v % 64 =
          v := by omega
        rw [List.cons_append, decodeFrom_none_cons, start_four _ (by omega), List.nil_append,
          List.cons_append, decodeFrom_middle (by omega) (by split <;> simp; omega)
            (by split <;> simp <;> omega), List.cons_append,
          decodeFrom_middle (by omega) (hmiddle _).1 (hmiddle _).2, List.singleton_append,
          decodeFrom_last (by omega) (hmiddle v).1 (hmiddle v).2, hbits, hc]

/-! ## Line feeds -/

theorem eq_of_ofNat_eq_lf (h : Char.ofNat n = '\n') : n = 10 := by
  unfold Char.ofNat at h
  by_cases hvalid : n.isValidChar
  · rw [dif_pos hvalid] at h
    exact congrArg Char.toNat h
  · rw [dif_neg hvalid] at h
    cases h

theorem late_of_some {q : Pending} (h : q.Late) : ∀ p, some q = some p → p.Late := by
  rintro _ ⟨⟩
  exact h

/-- Only its own byte begins a line feed. -/
theorem start_late (hb : b ≠ 10) :
    some '\n' ∉ (start b).1 ∧ ∀ p, (start b).2 = some p → p.Late := by
  have hten : b.toNat ≠ 10 := fun h => hb (UInt8.toNat_inj.1 h)
  unfold start
  simp only [UInt8.lt_iff_toNat_lt, beq_iff_eq, ← UInt8.toNat_inj, UInt8.reduceToNat]
  split
  · refine ⟨fun hlf => hten (eq_of_ofNat_eq_lf ?_), nofun⟩
    simpa using (List.mem_singleton.1 hlf).symm
  · repeat' split
    all_goals first
      | exact ⟨List.not_mem_nil,
          late_of_some (by simp only [Pending.Late, UInt8.reduceToNat]; omega)⟩
      | exact ⟨by simp, nofun⟩

/-- Bytes without that of a line feed are read as none. -/
theorem decodeFrom_not_lf (p : Option Pending) (hp : ∀ q, p = some q → q.Late) (hbs : 10 ∉ bs) :
    some '\n' ∉ decodeFrom p bs := by
  induction bs generalizing p with
  | nil => cases p <;> simp [decodeFrom]
  | cons b bs ih =>
    obtain ⟨hb, hrest⟩ := not_or.1 fun h => hbs (List.mem_cons.2 h)
    obtain ⟨hnone, hnext⟩ := start_late (Ne.symm hb)
    have hstep : some '\n' ∉ (step p b).1 ∧ ∀ q, (step p b).2 = some q → q.Late := by
      cases p with
      | none => exact ⟨hnone, hnext⟩
      | some q =>
        have hq := hp q rfl
        rw [step]
        split
        · next hbounds =>
          have hlow : q.low.toNat ≤ b.toNat := UInt8.le_iff_toNat_le.1 hbounds.1
          have hbits : 10 < q.bits * 64 + (b.toNat - 0x80) :=
            Nat.lt_of_lt_of_le hq (Nat.add_le_add_left (Nat.sub_le_sub_right hlow _) _)
          cases q.more with
          | zero =>
            refine ⟨fun hlf => ?_, nofun⟩
            have hchar := eq_of_ofNat_eq_lf (Option.some.inj (List.mem_singleton.1 hlf).symm)
            omega
          | succ more => exact ⟨List.not_mem_nil, late_of_some (by simp only [Pending.Late]; omega)⟩
        · exact ⟨by simpa using hnone, hnext⟩
    rw [decodeFrom]
    exact fun hmem => (List.mem_append.1 hmem).elim hstep.1 (ih _ hstep.2 hrest)

end Utf8

/-! ## Texts -/

variable {s : String} {cs : List Char} {c : Char}

theorem decode_encodeChars (cs : List Char) :
    decode (cs.flatMap String.utf8EncodeChar) = cs.map some := by
  induction cs with
  | nil => rfl
  | cons c cs ih =>
    rw [List.flatMap_cons, decode, Utf8.decodeFrom_encodeChar, List.map_cons, ← ih, decode]

theorem decodeLossy_encodeChars (cs : List Char) :
    decodeLossy (cs.flatMap String.utf8EncodeChar) = String.ofList cs := by
  rw [decodeLossy, decode_encodeChars, List.map_map]
  exact congrArg String.ofList (List.map_id'' (fun _ => rfl) cs)

/-- The bytes of a text are read as this text, -/
theorem decodeLossy_encode (s : String) : decodeLossy (encode s) = s := by
  rw [encode, decodeLossy_encodeChars, String.ofList_toList]

/-- and without an invalid part. -/
theorem decodeStrict_encode (s : String) : decodeStrict (encode s) = some s := by
  rw [decodeStrict, encode, decode_encodeChars]
  have h : (s.toList.map some).mapM id = some s.toList := by
    generalize s.toList = cs
    induction cs with
    | nil => rfl
    | cons c cs ih => rw [List.map_cons, List.mapM_cons, ih]; rfl
  rw [h, Option.map_some, String.ofList_toList]


/-! ## Bytes of characters -/

/-- A byte below `0x80` stands for its own character only. -/
theorem toNat_of_mem_encodeChar {b : UInt8} (h : b ∈ String.utf8EncodeChar c)
    (hb : b.toNat < 0x80) : c.toNat = b.toNat := by
  have hc : c.toNat = c.val.toNat := rfl
  rw [hc]
  unfold String.utf8EncodeChar at h
  generalize c.val.toNat = v at h
  -- the bytes of a longer character are all above
  have hlarge {n : Nat} (hn : 0x80 ≤ n) (hn' : n < 0x100) (heq : b = UInt8.ofNat n) : False := by
    rw [heq, Utf8.toNat_ofNat hn'] at hb
    omega
  dsimp only at h
  split at h
  · rw [List.mem_singleton.1 h, Utf8.toNat_ofNat (by omega)]
  · split at h
    · simp only [List.mem_cons, List.not_mem_nil, or_false] at h
      rcases h with h | h <;> exact (hlarge (by omega) (by omega) h).elim
    · split at h
      · simp only [List.mem_cons, List.not_mem_nil, or_false] at h
        rcases h with h | h | h <;> exact (hlarge (by omega) (by omega) h).elim
      · simp only [List.mem_cons, List.not_mem_nil, or_false] at h
        rcases h with h | h | h | h <;> exact (hlarge (by omega) (by omega) h).elim

theorem encodeChar_ne_nil (c : Char) : String.utf8EncodeChar c ≠ [] := by
  intro h
  have hsize := String.length_utf8EncodeChar c
  rw [h] at hsize
  exact absurd hsize (Nat.ne_of_lt c.utf8Size_pos)

/-- Line feeds are encoded as line feeds, and nothing else is. -/
theorem mem_encodeChar_lf : (10 : UInt8) ∈ String.utf8EncodeChar c ↔ c = '\n' := by
  constructor
  · intro h
    exact Char.toNat_inj.1 (toNat_of_mem_encodeChar h (by decide))
  · rintro rfl
    decide

theorem mem_encodeChars_lf : (10 : UInt8) ∈ cs.flatMap String.utf8EncodeChar ↔ '\n' ∈ cs := by
  simp only [List.mem_flatMap, mem_encodeChar_lf]
  exact ⟨fun ⟨_, hmem, hc⟩ => hc ▸ hmem, fun hmem => ⟨_, hmem, rfl⟩⟩

/-- A text holds a line feed when its bytes do. -/
theorem mem_encode_lf : (10 : UInt8) ∈ encode s ↔ '\n' ∈ s.toList := mem_encodeChars_lf

/-- Bytes without that of a line feed are shown as a text without one. -/
theorem decodeLossy_not_lf {bs : Bytes} (h : 10 ∉ bs) : '\n' ∉ (decodeLossy bs).toList := by
  rw [decodeLossy, String.toList_ofList]
  intro hmem
  obtain ⟨o, ho, hlf⟩ := List.mem_map.1 hmem
  cases o with
  | none => exact absurd hlf (by decide)
  | some c =>
    obtain rfl : c = '\n' := hlf
    exact Utf8.decodeFrom_not_lf none nofun h ho

/-! ## Lines -/

theorem flatMap_intercalate {α β : Type} (f : α → List β) (sep : List α) (parts : List (List α)) :
    (sep.intercalate parts).flatMap f = (sep.flatMap f).intercalate (parts.map (·.flatMap f)) := by
  induction parts with
  | nil => rfl
  | cons part parts ih =>
    rw [List.map_cons]
    by_cases hparts : parts = []
    · rw [hparts, List.intercalate_singleton, List.map_nil, List.intercalate_singleton]
    · rw [List.intercalate_cons_of_ne_nil hparts, List.flatMap_append, List.flatMap_append, ih,
        List.intercalate_cons_of_ne_nil (by simpa using hparts)]

/-- A text is cut at its line feeds before and after it is encoded. -/
theorem splitOn_encodeChars (cs : List Char) : (cs.flatMap String.utf8EncodeChar).splitOn 10 =
    (cs.splitOn '\n').map (·.flatMap String.utf8EncodeChar) := by
  have hlf : ['\n'].flatMap String.utf8EncodeChar = [10] := by decide
  conv => lhs; rw [← @List.intercalate_splitOn _ cs _ _ '\n', flatMap_intercalate, hlf]
  refine List.splitOn_intercalate 10 (fun part hpart => ?_) ?_
  · obtain ⟨part, hmem, rfl⟩ := List.mem_map.1 hpart
    exact fun hlf => not_mem_of_mem_splitOn hmem (mem_encodeChars_lf.1 hlf)
  · simp

/-- A carriage return at the end is dropped before and after. -/
theorem dropLastIf_encodeChars (cs : List Char) :
    dropLastIf 13 (cs.flatMap String.utf8EncodeChar) =
      (dropLastIf '\r' cs).flatMap String.utf8EncodeChar := by
  rcases List.eq_nil_or_concat cs with rfl | ⟨front, c, rfl⟩
  · rfl
  · rw [List.concat_eq_append, List.flatMap_append, List.flatMap_singleton]
    by_cases hc : c = '\r'
    · subst hc
      have hcr : String.utf8EncodeChar '\r' = [13] := by decide
      rw [hcr, dropLastIf, if_pos List.getLast?_concat, List.dropLast_concat, dropLastIf,
        if_pos List.getLast?_concat, List.dropLast_concat]
    · have hlast : (String.utf8EncodeChar c).getLast? ≠ some 13 := fun hcr =>
        hc (Char.toNat_inj.1 (toNat_of_mem_encodeChar (List.mem_of_getLast? hcr) (by decide)))
      have hne : (String.utf8EncodeChar c).getLast?.isSome := by
        simp [encodeChar_ne_nil c]
      rw [dropLastIf_of_ne (l := front ++ [c]) (by simpa using hc), List.flatMap_append,
        List.flatMap_singleton, dropLastIf_of_ne]
      rwa [List.getLast?_append, Option.or_of_isSome hne]

/-- The lines of an encoded text are its lines, encoded. -/
theorem breakLines_encodeChars (cs : List Char) :
    breakLines 10 13 (cs.flatMap String.utf8EncodeChar) =
      (breakLines '\n' '\r' cs).map (·.flatMap String.utf8EncodeChar) := by
  rw [breakLines, breakLines, splitOn_encodeChars]
  generalize cs.splitOn '\n' = parts
  rw [← List.map_dropLast, List.map_map, List.map_append, List.map_map, List.getLast?_map]
  congr 1
  · exact List.map_congr_left fun part _ => dropLastIf_encodeChars part
  · cases parts.getLast? with
    | none => rfl
    | some last =>
      cases last with
      | nil => rfl
      | cons c cs =>
        rw [Option.map_some, List.flatMap_cons]
        obtain ⟨b, bs, hbs⟩ := List.exists_cons_of_ne_nil (encodeChar_ne_nil c)
        rw [hbs]
        simp [hbs]

end Stencil.Text

namespace Stencil

/-- A stored text is read as the lines of the text. -/
theorem Source.ofBytes_encode (s : String) : ofBytes (Text.encode s) = ofText s := by
  rw [ofBytes, ofText, Text.encode, Text.breakLines_encodeChars, List.map_map]
  congr 2
  exact List.map_congr_left fun cs _ => Text.decodeLossy_encodeChars cs

end Stencil
