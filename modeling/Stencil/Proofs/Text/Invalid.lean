import Stencil.Proofs.Text.Utf8

/-!
# Characters and invalid parts

What a byte list is to be read as can be said without the machine that reads it: `Reads` takes off
the bytes of a character where one stands, and elsewhere as many bytes as could be the beginning of
one, one byte at least, as an invalid part. A byte list has one reading (`Reads.unique`), and the
machine finds it (`reads_iff`).

Below that, nothing about the machine is needed. An ASCII character ends an invalid part in front of
it, so that a byte list may be cut there before it is read or after (`Reads.append_ascii`), and an
ASCII character at the end of what is read comes of its own byte (`Reads.ends_in`).
-/

namespace Stencil.Text

/-- A character begins with these bytes. -/
def BeginsChar (bs : Bytes) : Prop := ∃ c : Char, bs <+: String.utf8EncodeChar c

/-- In front of `rest`, the bytes `part` are an invalid part. No character stands there, and the
part has as many bytes as could be the beginning of one, but one at least. -/
structure InvalidPart (part rest : Bytes) : Prop where
  nonempty : part ≠ []
  no_char : ∀ c, ¬ String.utf8EncodeChar c <+: part ++ rest
  begins : part.length = 1 ∨ BeginsChar part
  longest : ∀ longer, longer <+: part ++ rest → BeginsChar longer → longer.length ≤ part.length

/-- The characters and, as `none`, the invalid parts that a byte list is read as. -/
inductive Reads : Bytes → List (Option Char) → Prop
  | nil : Reads [] []
  | char {rest : Bytes} {os : List (Option Char)} (c : Char) (hrest : Reads rest os) :
      Reads (String.utf8EncodeChar c ++ rest) (some c :: os)
  | invalid {part rest : Bytes} {os : List (Option Char)} (hpart : InvalidPart part rest)
      (hrest : Reads rest os) : Reads (part ++ rest) (none :: os)

variable {bs rest rest' part seen tail : Bytes} {os os' : List (Option Char)} {c d : Char}
  {b : UInt8}

/-! ## One reading -/

/-- The bytes of a character are not the beginning of those of another, -/
theorem encodeChar_append_inj
    (h : String.utf8EncodeChar c ++ rest = String.utf8EncodeChar d ++ rest') :
    c = d ∧ rest = rest' := by
  have hread := congrArg (Utf8.decodeFrom none) h
  rw [Utf8.decodeFrom_encodeChar, Utf8.decodeFrom_encodeChar] at hread
  obtain rfl : c = d := Option.some.inj (List.cons.inj hread).1
  exact ⟨rfl, List.append_cancel_left h⟩

/-- and an invalid part is as long as another in front of the same bytes. -/
theorem InvalidPart.length_le {part' : Bytes} (h : InvalidPart part rest)
    (h' : InvalidPart part' rest') (heq : part ++ rest = part' ++ rest') :
    part'.length ≤ part.length := by
  rcases h'.begins with hone | hbegins
  · rw [hone]
    exact List.length_pos_iff.2 h.nonempty
  · exact h.longest part' (heq ▸ List.prefix_append part' rest') hbegins

/-- A byte list has one reading. -/
theorem Reads.unique (h : Reads bs os) (h' : Reads bs os') : os = os' := by
  induction h generalizing os' with
  | nil =>
    generalize hbs : ([] : Bytes) = bs at h'
    cases h' with
    | nil => rfl
    | char c => exact absurd (List.append_eq_nil_iff.1 hbs.symm).1 (encodeChar_ne_nil c)
    | invalid hpart => exact absurd (List.append_eq_nil_iff.1 hbs.symm).1 hpart.nonempty
  | @char rest os c hrest ih =>
    generalize hbs : String.utf8EncodeChar c ++ rest = bs at h'
    cases h' with
    | nil => exact absurd (List.append_eq_nil_iff.1 hbs).1 (encodeChar_ne_nil c)
    | char d hrest' =>
      obtain ⟨rfl, rfl⟩ := encodeChar_append_inj hbs
      rw [ih hrest']
    | invalid hpart => exact absurd (hbs ▸ List.prefix_append _ rest) (hpart.no_char c)
  | @invalid part rest os hpart hrest ih =>
    generalize hbs : part ++ rest = bs at h'
    cases h' with
    | nil => exact absurd (List.append_eq_nil_iff.1 hbs).1 hpart.nonempty
    | char d => exact absurd (hbs ▸ List.prefix_append _ _) (hpart.no_char d)
    | invalid hpart' hrest' =>
      have hlength := Nat.le_antisymm (hpart'.length_le hpart hbs.symm)
        (hpart.length_le hpart' hbs)
      obtain ⟨-, rfl⟩ := List.append_inj hbs hlength
      rw [ih hrest']

/-! ## What the machine waits for -/

namespace Utf8

/-- The bytes that complete a character begun, and the character. -/
inductive Completes : Pending → Bytes → Char → Prop
  | last {low high b : UInt8} {bits : Nat} (hlow : low ≤ b) (hhigh : b ≤ high) :
      Completes ⟨low, high, 0, bits⟩ [b] (Char.ofNat (bits * 64 + (b.toNat - 0x80)))
  | byte {low high b : UInt8} {more bits : Nat} {tail : Bytes} {c : Char} (hlow : low ≤ b)
      (hhigh : b ≤ high)
      (htail : Completes ⟨0x80, 0xBF, more, bits * 64 + (b.toNat - 0x80)⟩ tail c) :
      Completes ⟨low, high, more + 1, bits⟩ (b :: tail) c

/-- The machine has read the bytes `seen` of a character, and what completes it are the further
bytes of just the characters that begin with these. -/
structure After (p : Pending) (seen : Bytes) : Prop where
  bounds : p.low ≤ p.high
  completes_iff : ∀ tail c, Completes p tail c ↔ String.utf8EncodeChar c = seen ++ tail

variable {p : Pending}

theorem Completes.ne_nil (h : Completes p tail c) : tail ≠ [] := by
  cases h <;> exact List.cons_ne_nil _ _

/-- Only bytes within the bounds continue the character. -/
theorem Completes.within (h : Completes p (b :: tail) c) : p.low ≤ b ∧ b ≤ p.high := by
  cases h with
  | last hlow hhigh => exact ⟨hlow, hhigh⟩
  | byte hlow hhigh => exact ⟨hlow, hhigh⟩

/-- A character begun can be completed. -/
theorem exists_completes (hbounds : p.low ≤ p.high) : ∃ tail c, Completes p tail c := by
  obtain ⟨low, high, more, bits⟩ := p
  induction more generalizing low high bits with
  | zero => exact ⟨_, _, .last (UInt8.le_refl low) hbounds⟩
  | succ more ih =>
    have htails : (0x80 : UInt8) ≤ 0xBF := by decide
    obtain ⟨tail, c, h⟩ := ih 0x80 0xBF _ htails
    exact ⟨_, c, .byte (UInt8.le_refl low) hbounds h⟩

/-- What follows a pending byte is not read as nothing. -/
theorem decodeFrom_some_ne_nil (p : Pending) (bs : Bytes) : decodeFrom (some p) bs ≠ [] := by
  induction bs generalizing p with
  | nil => exact List.cons_ne_nil _ _
  | cons b bs ih =>
    rw [decodeFrom, step]
    split
    · cases p.more with
      | zero => exact List.cons_ne_nil _ _
      | succ more => exact ih _
    · exact List.cons_ne_nil _ _

theorem eq_nil_of_decodeFrom (h : decodeFrom none bs = []) : bs = [] := by
  cases bs with
  | nil => rfl
  | cons b bs =>
    rw [decodeFrom_none_cons, List.append_eq_nil_iff] at h
    cases hp : (start b).2 with
    | some p => exact absurd (hp ▸ h.2) (decodeFrom_some_ne_nil p bs)
    | none =>
      -- a byte that leaves nothing pending is read as something
      revert h hp
      unfold start
      repeat' split
      all_goals simp

/-- Bytes that the machine reads as one character complete it. -/
theorem completes_of_decodeFrom (h : decodeFrom (some p) tail = [some c]) :
    Completes p tail c := by
  induction tail generalizing p with
  | nil => cases h
  | cons b tail ih =>
    obtain ⟨low, high, more, bits⟩ := p
    rw [decodeFrom, step] at h
    split at h
    · next hbounds =>
      cases more with
      | zero =>
        obtain ⟨hchar, hrest⟩ := List.cons.inj h
        obtain rfl := Option.some.inj hchar
        obtain rfl := eq_nil_of_decodeFrom hrest
        exact .last hbounds.1 hbounds.2
      | succ more => exact .byte hbounds.1 hbounds.2 (ih h)
    · cases (List.cons.inj h).1

/-! ## The bytes of characters -/

theorem toNat_val_ofNat {n : Nat} (h : n.isValidChar) : (Char.ofNat n).val.toNat = n := by
  rw [Char.ofNat, dif_pos h]
  rfl

variable {b₀ b₁ b₂ b₃ : UInt8}

/-- A byte by its value. -/
theorem eq_ofNat {n : Nat} (h : n = b.toNat) : UInt8.ofNat n = b := by
  rw [h, UInt8.ofNat_toNat]

/-- A small byte is that of a character, -/
theorem encodeChar_one (hb : b.toNat < 0x80) :
    String.utf8EncodeChar (Char.ofNat b.toNat) = [b] := by
  unfold String.utf8EncodeChar
  rw [toNat_val_ofNat (.inl (by omega))]
  dsimp only
  rw [if_pos (by omega), UInt8.ofNat_toNat]

/-- and so are two bytes, -/
theorem encodeChar_two (hlow : 0xC2 ≤ b₀.toNat) (hhigh : b₀.toNat < 0xE0)
    (h₁ : 0x80 ≤ b₁.toNat ∧ b₁.toNat ≤ 0xBF) :
    String.utf8EncodeChar (Char.ofNat ((b₀.toNat - 0xC0) * 64 + (b₁.toNat - 0x80))) =
      [b₀, b₁] := by
  have hvalid : ((b₀.toNat - 0xC0) * 64 + (b₁.toNat - 0x80)).isValidChar := .inl (by omega)
  unfold String.utf8EncodeChar
  rw [toNat_val_ofNat hvalid]
  dsimp only
  rw [if_neg (by omega), if_pos (by omega), eq_ofNat (b := b₀) (by omega),
    eq_ofNat (b := b₁) (by omega)]

/-- three that do not make a number of a shorter form or a surrogate, -/
theorem encodeChar_three (hlow : 0xE0 ≤ b₀.toNat) (hhigh : b₀.toNat < 0xF0)
    (h₁ : 0x80 ≤ b₁.toNat ∧ b₁.toNat ≤ 0xBF) (h₂ : 0x80 ≤ b₂.toNat ∧ b₂.toNat ≤ 0xBF)
    (hlong : b₀.toNat = 0xE0 → 0xA0 ≤ b₁.toNat) (hvalid : b₀.toNat = 0xED → b₁.toNat ≤ 0x9F) :
    String.utf8EncodeChar (Char.ofNat
      (((b₀.toNat - 0xE0) * 64 + (b₁.toNat - 0x80)) * 64 + (b₂.toNat - 0x80))) = [b₀, b₁, b₂] := by
  have hchar : (((b₀.toNat - 0xE0) * 64 + (b₁.toNat - 0x80)) * 64 +
      (b₂.toNat - 0x80)).isValidChar := by
    unfold Nat.isValidChar
    omega
  unfold String.utf8EncodeChar
  rw [toNat_val_ofNat hchar]
  dsimp only
  rw [if_neg (by omega), if_neg (by omega), if_pos (by omega), eq_ofNat (b := b₀) (by omega),
    eq_ofNat (b := b₁) (by omega), eq_ofNat (b := b₂) (by omega)]

/-- and four that do not make a number of a shorter form or one that is too large. -/
theorem encodeChar_four (hlow : 0xF0 ≤ b₀.toNat) (hhigh : b₀.toNat ≤ 0xF4)
    (h₁ : 0x80 ≤ b₁.toNat ∧ b₁.toNat ≤ 0xBF) (h₂ : 0x80 ≤ b₂.toNat ∧ b₂.toNat ≤ 0xBF)
    (h₃ : 0x80 ≤ b₃.toNat ∧ b₃.toNat ≤ 0xBF) (hlong : b₀.toNat = 0xF0 → 0x90 ≤ b₁.toNat)
    (hvalid : b₀.toNat = 0xF4 → b₁.toNat ≤ 0x8F) :
    String.utf8EncodeChar (Char.ofNat ((((b₀.toNat - 0xF0) * 64 + (b₁.toNat - 0x80)) * 64 +
      (b₂.toNat - 0x80)) * 64 + (b₃.toNat - 0x80))) = [b₀, b₁, b₂, b₃] := by
  have hchar : ((((b₀.toNat - 0xF0) * 64 + (b₁.toNat - 0x80)) * 64 + (b₂.toNat - 0x80)) * 64 +
      (b₃.toNat - 0x80)).isValidChar := by
    unfold Nat.isValidChar
    omega
  unfold String.utf8EncodeChar
  rw [toNat_val_ofNat hchar]
  dsimp only
  rw [if_neg (by omega), if_neg (by omega), if_neg (by omega), eq_ofNat (b := b₀) (by omega),
    eq_ofNat (b := b₁) (by omega), eq_ofNat (b := b₂) (by omega), eq_ofNat (b := b₃) (by omega)]

/-! ## From the first byte on -/

/-- The machine waits for bytes within bounds, which complete `b` to a character. -/
def Begun (p : Pending) (b : UInt8) : Prop :=
  p.low ≤ p.high ∧ ∀ tail c, Completes p tail c → String.utf8EncodeChar c = b :: tail

variable {low high : UInt8} {more bits : Nat}

theorem begun_two (hb : 0xC2 ≤ b.toNat ∧ b.toNat < 0xE0) (hbits : bits = b.toNat - 0xC0)
    (hbounds : 0x80 ≤ low.toNat ∧ low.toNat ≤ high.toNat ∧ high.toNat ≤ 0xBF) :
    Begun ⟨low, high, 0, bits⟩ b := by
  refine ⟨UInt8.le_iff_toNat_le.2 hbounds.2.1, fun tail c h => ?_⟩
  cases h with
  | last hlow hhigh =>
    have hlow := UInt8.le_iff_toNat_le.1 hlow
    have hhigh := UInt8.le_iff_toNat_le.1 hhigh
    rw [hbits]
    exact encodeChar_two hb.1 hb.2 (by omega)

theorem begun_three (hb : 0xE0 ≤ b.toNat ∧ b.toNat < 0xF0) (hbits : bits = b.toNat - 0xE0)
    (hbounds : 0x80 ≤ low.toNat ∧ low.toNat ≤ high.toNat ∧ high.toNat ≤ 0xBF)
    (hlong : b.toNat = 0xE0 → 0xA0 ≤ low.toNat) (hvalid : b.toNat = 0xED → high.toNat ≤ 0x9F) :
    Begun ⟨low, high, 1, bits⟩ b := by
  refine ⟨UInt8.le_iff_toNat_le.2 hbounds.2.1, fun tail c h => ?_⟩
  cases h with
  | byte hlow hhigh htail =>
    have hlow := UInt8.le_iff_toNat_le.1 hlow
    have hhigh := UInt8.le_iff_toNat_le.1 hhigh
    cases htail with
    | last hlow₂ hhigh₂ =>
      have h₂ := And.intro (UInt8.le_iff_toNat_le.1 hlow₂) (UInt8.le_iff_toNat_le.1 hhigh₂)
      rw [hbits]
      exact encodeChar_three hb.1 hb.2 (by omega) h₂ (by omega) (by omega)

theorem begun_four (hb : 0xF0 ≤ b.toNat ∧ b.toNat ≤ 0xF4) (hbits : bits = b.toNat - 0xF0)
    (hbounds : 0x80 ≤ low.toNat ∧ low.toNat ≤ high.toNat ∧ high.toNat ≤ 0xBF)
    (hlong : b.toNat = 0xF0 → 0x90 ≤ low.toNat) (hvalid : b.toNat = 0xF4 → high.toNat ≤ 0x8F) :
    Begun ⟨low, high, 2, bits⟩ b := by
  refine ⟨UInt8.le_iff_toNat_le.2 hbounds.2.1, fun tail c h => ?_⟩
  cases h with
  | byte hlow hhigh htail =>
    have hlow := UInt8.le_iff_toNat_le.1 hlow
    have hhigh := UInt8.le_iff_toNat_le.1 hhigh
    cases htail with
    | byte hlow₂ hhigh₂ htail =>
      have h₂ := And.intro (UInt8.le_iff_toNat_le.1 hlow₂) (UInt8.le_iff_toNat_le.1 hhigh₂)
      cases htail with
      | last hlow₃ hhigh₃ =>
        have h₃ := And.intro (UInt8.le_iff_toNat_le.1 hlow₃) (UInt8.le_iff_toNat_le.1 hhigh₃)
        rw [hbits]
        exact encodeChar_four hb.1 hb.2 (by omega) h₂ h₃ (by omega) (by omega)

/-- What the machine waits for after a first byte completes it. -/
theorem start_begun (h : start b = ([], some p)) : Begun p b := by
  unfold start at h
  simp only [UInt8.lt_iff_toNat_lt, beq_iff_eq, ← UInt8.toNat_inj, UInt8.reduceToNat] at h
  split at h
  · cases h
  split at h
  · cases h
  split at h
  · cases h
    exact begun_two (by omega) rfl (by decide)
  split at h
  · cases h
    exact begun_three (by omega) (by omega) (by decide) (fun _ => by decide) (by omega)
  split at h
  · cases h
    exact begun_three (by omega) (by omega) (by decide) (by omega) (fun _ => by decide)
  split at h
  · cases h
    exact begun_three (by omega) rfl (by decide) (by omega) (by omega)
  split at h
  · cases h
    exact begun_four (by omega) (by omega) (by decide) (fun _ => by decide) (by omega)
  split at h
  · cases h
    exact begun_four (by omega) rfl (by decide) (by omega) (by omega)
  split at h
  · cases h
    exact begun_four (by omega) (by omega) (by decide) (by omega) (fun _ => by decide)
  · cases h

/-- A byte that begins a character of several. -/
theorem start_after (h : start b = ([], some p)) : After p [b] := by
  obtain ⟨hbounds, hencodes⟩ := start_begun h
  refine ⟨hbounds, fun tail c => ⟨hencodes tail c, fun hc => completes_of_decodeFrom ?_⟩⟩
  have hread := decodeFrom_encodeChar c []
  rwa [List.append_nil, hc, List.singleton_append, decodeFrom_none_cons, h] at hread

/-- A further byte that is within the bounds is one of the character. -/
theorem After.byte (h : After ⟨low, high, more + 1, bits⟩ seen) (hlow : low ≤ b)
    (hhigh : b ≤ high) :
    After ⟨0x80, 0xBF, more, bits * 64 + (b.toNat - 0x80)⟩ (seen ++ [b]) := by
  refine ⟨show (0x80 : UInt8) ≤ 0xBF by decide, fun tail c => ?_⟩
  rw [List.append_assoc, List.singleton_append, ← h.completes_iff]
  refine ⟨.byte hlow hhigh, fun hc => ?_⟩
  cases hc with
  | byte _ _ htail => exact htail

/-- The last one completes it. -/
theorem After.last (h : After ⟨low, high, 0, bits⟩ seen) (hlow : low ≤ b) (hhigh : b ≤ high) :
    String.utf8EncodeChar (Char.ofNat (bits * 64 + (b.toNat - 0x80))) = seen ++ [b] :=
  (h.completes_iff [b] _).1 (.last hlow hhigh)

/-- What was read of a character is the beginning of one, -/
theorem After.beginsChar (h : After p seen) : BeginsChar seen := by
  obtain ⟨tail, c, hc⟩ := exists_completes h.bounds
  exact ⟨c, tail, ((h.completes_iff tail c).1 hc).symm⟩

/-- but not a character, -/
theorem After.not_encodeChar (h : After p seen) (c : Char) :
    ¬ String.utf8EncodeChar c <+: seen := by
  rintro ⟨front, hfront⟩
  obtain ⟨tail, d, hd⟩ := exists_completes h.bounds
  have hcode := (h.completes_iff tail d).1 hd
  rw [← hfront, List.append_assoc, ← List.append_nil (String.utf8EncodeChar d)] at hcode
  obtain ⟨-, hnil⟩ := encodeChar_append_inj hcode
  exact hd.ne_nil (List.append_eq_nil_iff.1 hnil.symm).2

/-- and no more begins one where no byte within the bounds follows. -/
theorem After.eq_nil_of_beginsChar (h : After p seen)
    (hstop : ∀ b tail, rest = b :: tail → ¬ (p.low ≤ b ∧ b ≤ p.high))
    (hfront : bs <+: rest) (hbegins : BeginsChar (seen ++ bs)) : bs = [] := by
  cases bs with
  | nil => rfl
  | cons b bs =>
    obtain ⟨behind, rfl⟩ := hfront
    obtain ⟨c, tail, hcode⟩ := hbegins
    rw [List.append_assoc, List.cons_append] at hcode
    exact absurd ((h.completes_iff _ c).2 hcode.symm).within (hstop b _ rfl)

/-- It is an invalid part then. -/
theorem After.invalidPart (h : After p seen) (hne : seen ≠ [])
    (hstop : ∀ b tail, rest = b :: tail → ¬ (p.low ≤ b ∧ b ≤ p.high)) : InvalidPart seen rest := by
  refine ⟨hne, fun c ⟨behind, hc⟩ => ?_, .inr h.beginsChar,
    fun longer ⟨behind, hlonger⟩ hbegins => ?_⟩
  · rcases List.append_eq_append_iff.1 hc with ⟨front, hseen, -⟩ | ⟨more, hcode, hrest⟩
    · exact h.not_encodeChar c ⟨front, hseen.symm⟩
    · obtain rfl := h.eq_nil_of_beginsChar hstop (hrest ▸ List.prefix_append more behind)
        ⟨c, hcode ▸ List.prefix_refl _⟩
      rw [List.append_nil] at hcode
      exact h.not_encodeChar c (hcode ▸ List.prefix_refl seen)
  · rcases List.append_eq_append_iff.1 hlonger with ⟨front, hseen, -⟩ | ⟨more, rfl, hrest⟩
    · rw [hseen, List.length_append]
      exact Nat.le_add_right _ _
    · have hmore := h.eq_nil_of_beginsChar hstop (hrest ▸ List.prefix_append more behind) hbegins
      exact Nat.le_of_eq (by rw [hmore, List.append_nil])

/-- A byte that begins no character is an invalid part. -/
theorem invalidPart_single (h : start b = ([none], none)) (rest : Bytes) :
    InvalidPart [b] rest := by
  have hnone (c : Char) (tail : Bytes) : String.utf8EncodeChar c ≠ b :: tail := by
    intro hc
    have hread := decodeFrom_encodeChar c []
    rw [List.append_nil, hc, decodeFrom_none_cons, h] at hread
    cases (List.cons.inj hread).1
  refine ⟨List.cons_ne_nil b [], fun c ⟨behind, hc⟩ => ?_, .inl rfl,
    fun longer ⟨behind, hlonger⟩ ⟨c, tail, hcode⟩ => ?_⟩
  · obtain ⟨d, ds, hd⟩ := List.exists_cons_of_ne_nil (encodeChar_ne_nil c)
    rw [hd] at hc
    exact hnone c ds (by rw [hd, (List.cons.inj hc).1])
  · cases longer with
    | nil => exact Nat.zero_le _
    | cons d ds =>
      rw [(List.cons.inj hlonger).1] at hcode
      exact absurd hcode.symm (hnone c _)

/-- A byte is a character, or an invalid part, or begins a character of several bytes. -/
theorem start_cases (b : UInt8) :
    (start b = ([some (Char.ofNat b.toNat)], none) ∧
        String.utf8EncodeChar (Char.ofNat b.toNat) = [b]) ∨
      start b = ([none], none) ∨ ∃ p, start b = ([], some p) := by
  by_cases hb : b < 0x80
  · exact .inl ⟨if_pos hb, encodeChar_one (UInt8.lt_iff_toNat_lt.1 hb)⟩
  · refine .inr ?_
    unfold start
    rw [if_neg hb]
    repeat' split
    all_goals first
      | exact .inl rfl
      | exact .inr ⟨_, rfl⟩

/-! ## What the machine reads -/

/-- The machine reads as it should from where a character is begun, and between characters. -/
theorem decodeFrom_reads (bs : Bytes) : Reads bs (decodeFrom none bs) ∧
    ∀ p seen, After p seen → seen ≠ [] → Reads (seen ++ bs) (decodeFrom (some p) bs) := by
  induction bs with
  | nil =>
    refine ⟨.nil, fun p seen h hne => ?_⟩
    exact .invalid (h.invalidPart hne nofun) .nil
  | cons b bs ih =>
    have hnone : Reads (b :: bs) (decodeFrom none (b :: bs)) := by
      rw [decodeFrom_none_cons]
      rcases start_cases b with ⟨hstart, hcode⟩ | hstart | ⟨p, hstart⟩
      · rw [hstart]
        have := Reads.char (Char.ofNat b.toNat) ih.1
        rwa [hcode] at this
      · rw [hstart]
        exact .invalid (invalidPart_single hstart bs) ih.1
      · rw [hstart]
        exact ih.2 p [b] (start_after hstart) (List.cons_ne_nil b [])
    refine ⟨hnone, fun p seen h hne => ?_⟩
    obtain ⟨low, high, more, bits⟩ := p
    rw [decodeFrom, step]
    split
    · next hbounds =>
      rw [← List.singleton_append, ← List.append_assoc]
      cases more with
      | zero =>
        rw [← h.last hbounds.1 hbounds.2]
        exact .char _ ih.1
      | succ more => exact ih.2 _ _ (h.byte hbounds.1 hbounds.2) (by simp)
    · next hbounds =>
      refine .invalid (h.invalidPart hne ?_) hnone
      rintro _ _ ⟨⟩
      exact hbounds

end Utf8

/-- A byte list is read as its characters and invalid parts. -/
theorem reads_iff : Reads bs os ↔ os = decode bs := by
  constructor
  · exact fun h => h.unique (Utf8.decodeFrom_reads bs).1
  · rintro rfl
    exact (Utf8.decodeFrom_reads bs).1

/-! ## ASCII characters -/

/-- In a character of several bytes there is none of an ASCII character. -/
theorem eq_nil_of_encodeChar_eq {front back : Bytes} (hb : b.toNat < 0x80)
    (h : String.utf8EncodeChar c = front ++ b :: back) : front = [] := by
  have hc : c.toNat = b.toNat := toNat_of_mem_encodeChar (h ▸ by simp) hb
  rw [← Char.ofNat_toNat c, hc, Utf8.encodeChar_one hb] at h
  have hlength := congrArg List.length h
  simp only [List.length_append, List.length_cons, List.length_nil] at hlength
  exact List.eq_nil_of_length_eq_zero (by omega)

/-- So none begins in front of an ASCII character and goes on behind it, -/
theorem BeginsChar.of_append_ascii {front behind : Bytes} (hb : b.toNat < 0x80) (hne : bs ≠ [])
    (hfront : front <+: bs ++ b :: behind) (h : BeginsChar front) : front <+: bs := by
  obtain ⟨back, hback⟩ := hfront
  rcases List.append_eq_append_iff.1 hback with ⟨more, hbs, -⟩ | ⟨more, rfl, hmore⟩
  · exact ⟨more, hbs.symm⟩
  · cases more with
    | nil => simp
    | cons d more =>
      obtain ⟨rfl, -⟩ := List.cons.inj hmore
      obtain ⟨c, tail, hcode⟩ := h
      rw [List.append_assoc, List.cons_append] at hcode
      exact absurd (eq_nil_of_encodeChar_eq hb hcode.symm) hne

/-- and an invalid part is one whether or not an ASCII character follows behind. -/
theorem InvalidPart.append_ascii (hb : b.toNat < 0x80) (h : InvalidPart part rest)
    (behind : Bytes) : InvalidPart part (rest ++ b :: behind) := by
  have hne : part ++ rest ≠ [] := List.append_ne_nil_of_left_ne_nil h.nonempty rest
  refine ⟨h.nonempty, fun c hc => ?_, h.begins, fun longer hlonger hbegins => ?_⟩
  · rw [← List.append_assoc] at hc
    exact h.no_char c (BeginsChar.of_append_ascii hb hne hc ⟨c, List.prefix_refl _⟩)
  · rw [← List.append_assoc] at hlonger
    exact h.longest longer (hbegins.of_append_ascii hb hne hlonger) hbegins

/-- A byte list may be cut in front of an ASCII character and behind it. -/
theorem Reads.append_ascii (h : Reads bs os) (hb : b.toNat < 0x80) (hrest : Reads rest os') :
    Reads (bs ++ b :: rest) (os ++ some (Char.ofNat b.toNat) :: os') := by
  induction h with
  | nil =>
    have := Reads.char (Char.ofNat b.toNat) hrest
    rwa [Utf8.encodeChar_one hb] at this
  | char c _ ih =>
    rw [List.append_assoc]
    exact .char c ih
  | invalid hpart _ ih =>
    rw [List.append_assoc]
    exact .invalid (hpart.append_ascii hb rest) ih

theorem Reads.eq_nil_iff (h : Reads bs os) : os = [] ↔ bs = [] := by
  cases h with
  | nil => simp
  | char c => simp [encodeChar_ne_nil c]
  | invalid hpart => simp [hpart.nonempty]

/-- The character that is read last comes of the last bytes. -/
theorem Reads.ends_in (h : Reads bs os) (hlast : os.getLast? = some (some c)) :
    ∃ front, bs = front ++ String.utf8EncodeChar c := by
  induction h with
  | nil => cases hlast
  | @char rest os d hrest ih =>
    by_cases hos : os = []
    · subst hos
      obtain rfl := hrest.eq_nil_iff.1 rfl
      obtain rfl : d = c := by simpa using hlast
      exact ⟨[], List.append_nil _⟩
    · rw [List.getLast?_cons_of_ne_nil hos] at hlast
      obtain ⟨front, rfl⟩ := ih hlast
      exact ⟨_, (List.append_assoc _ _ _).symm⟩
  | @invalid part rest os hpart hrest ih =>
    by_cases hos : os = []
    · subst hos
      cases hlast
    · rw [List.getLast?_cons_of_ne_nil hos] at hlast
      obtain ⟨front, rfl⟩ := ih hlast
      exact ⟨_, (List.append_assoc _ _ _).symm⟩

end Stencil.Text
