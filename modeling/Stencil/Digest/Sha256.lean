import Stencil.Text.Hex
import Stencil.Text.Utf8

/-!
# SHA-256

The digest of a byte list. The message is padded to blocks of 64 bytes, and every block changes a
state of eight words in 64 rounds. `padding_length` says that the padded message fills its blocks.
-/

namespace Stencil.Digest

open Text (Bytes)

/-- The eight words that a message is condensed to. -/
structure State where
  a : UInt32
  b : UInt32
  c : UInt32
  d : UInt32
  e : UInt32
  f : UInt32
  g : UInt32
  h : UInt32
deriving DecidableEq, Repr

/-- The words of the rounds: the first 32 bits of the fractional parts of the cube roots of the
first 64 primes. -/
def roundWords : List UInt32 :=
  [0x428a2f98, 0x71374491, 0xb5c0fbcf, 0xe9b5dba5, 0x3956c25b, 0x59f111f1,
   0x923f82a4, 0xab1c5ed5, 0xd807aa98, 0x12835b01, 0x243185be, 0x550c7dc3,
   0x72be5d74, 0x80deb1fe, 0x9bdc06a7, 0xc19bf174, 0xe49b69c1, 0xefbe4786,
   0x0fc19dc6, 0x240ca1cc, 0x2de92c6f, 0x4a7484aa, 0x5cb0a9dc, 0x76f988da,
   0x983e5152, 0xa831c66d, 0xb00327c8, 0xbf597fc7, 0xc6e00bf3, 0xd5a79147,
   0x06ca6351, 0x14292967, 0x27b70a85, 0x2e1b2138, 0x4d2c6dfc, 0x53380d13,
   0x650a7354, 0x766a0abb, 0x81c2c92e, 0x92722c85, 0xa2bfe8a1, 0xa81a664b,
   0xc24b8b70, 0xc76c51a3, 0xd192e819, 0xd6990624, 0xf40e3585, 0x106aa070,
   0x19a4c116, 0x1e376c08, 0x2748774c, 0x34b0bcb5, 0x391c0cb3, 0x4ed8aa4a,
   0x5b9cca4f, 0x682e6ff3, 0x748f82ee, 0x78a5636f, 0x84c87814, 0x8cc70208,
   0x90befffa, 0xa4506ceb, 0xbef9a3f7, 0xc67178f2]

/-- The state before the first block: the first 32 bits of the fractional parts of the square
roots of the first eight primes. -/
def initialState : State :=
  { a := 0x6a09e667, b := 0xbb67ae85, c := 0x3c6ef372, d := 0xa54ff53a,
    e := 0x510e527f, f := 0x9b05688c, g := 0x1f83d9ab, h := 0x5be0cd19 }

/-- A word turned right by `n` bits, of which there are fewer than 32. -/
def turned (w : UInt32) (n : UInt32) : UInt32 := (w >>> n) ||| (w <<< (32 - n))

/-- The word of four bytes, the highest one first. -/
def wordOf : Bytes → UInt32
  | [a, b, c, d] => (a.toUInt32 <<< 24) ||| (b.toUInt32 <<< 16) ||| (c.toUInt32 <<< 8) ||| d.toUInt32
  | _ => 0

/-- The bytes of a word, the highest one first. -/
def bytesOf (w : UInt32) : Bytes :=
  [(w >>> 24).toUInt8, (w >>> 16).toUInt8, (w >>> 8).toUInt8, w.toUInt8]

/-- A list in pieces of `n`, of which there are `count`. -/
def inPieces {α : Type} (n : Nat) : (count : Nat) → List α → List (List α)
  | 0, _ => []
  | count + 1, l => l.take n :: inPieces n count (l.drop n)

/-- What is put behind a message of `n` bytes: a single bit, zeros up to eight bytes before the end
of a block, and the number of bits. -/
def padding (n : Nat) : Bytes :=
  0x80 :: List.replicate ((119 - n % 64) % 64) 0 ++
    bytesOf (UInt32.ofNat (n / 0x20000000)) ++ bytesOf (UInt32.ofNat (n * 8))

theorem padding_length (n : Nat) : (n + (padding n).length) % 64 = 0 := by
  simp only [padding, bytesOf, List.length_cons, List.length_append, List.length_replicate,
    List.length_nil]
  omega

/-- The blocks of a message, in words. -/
def blocks (bs : Bytes) : List (List UInt32) :=
  let padded := bs ++ padding bs.length
  (inPieces 64 (padded.length / 64) padded).map fun block => (inPieces 4 16 block).map wordOf

/-- The next word of a schedule, given the sixteen words before it. -/
def nextWord (w : Array UInt32) : UInt32 :=
  let back (n : Nat) : UInt32 := w.getD (w.size - n) 0
  let s0 := turned (back 15) 7 ^^^ turned (back 15) 18 ^^^ (back 15 >>> 3)
  let s1 := turned (back 2) 17 ^^^ turned (back 2) 19 ^^^ (back 2 >>> 10)
  back 16 + s0 + back 7 + s1

/-- The words of a block continued to one word for each round. -/
def schedule (block : List UInt32) : Array UInt32 :=
  (List.range 48).foldl (fun w _ => w.push (nextWord w)) block.toArray

/-- One round, with the sum of the round's word and the block's. -/
def round (s : State) (word : UInt32) : State :=
  let s1 := turned s.e 6 ^^^ turned s.e 11 ^^^ turned s.e 25
  let choice := (s.e &&& s.f) ^^^ (~~~ s.e &&& s.g)
  let first := s.h + s1 + choice + word
  let s0 := turned s.a 2 ^^^ turned s.a 13 ^^^ turned s.a 22
  let majority := (s.a &&& s.b) ^^^ (s.a &&& s.c) ^^^ (s.b &&& s.c)
  { a := first + (s0 + majority), b := s.a, c := s.b, d := s.c,
    e := s.d + first, f := s.e, g := s.f, h := s.g }

/-- Two states added word by word. -/
def State.add (s t : State) : State :=
  ⟨s.a + t.a, s.b + t.b, s.c + t.c, s.d + t.d, s.e + t.e, s.f + t.f, s.g + t.g, s.h + t.h⟩

/-- The state after a block. -/
def compress (s : State) (block : List UInt32) : State :=
  s.add ((List.zipWith (· + ·) roundWords (schedule block).toList).foldl round s)

/-- The digest of a byte list. -/
def sha256 (bs : Bytes) : Bytes :=
  let s := (blocks bs).foldl compress initialState
  [s.a, s.b, s.c, s.d, s.e, s.f, s.g, s.h].flatMap bytesOf

/-- Bytes in hexadecimal digits. -/
def hex (bs : Bytes) : String :=
  String.ofList (bs.flatMap fun b => [Text.lowerDigit (b.toNat / 16), Text.lowerDigit (b.toNat % 16)])

/-- The digest of a byte list as it is written. -/
def fingerprint (bs : Bytes) : String := hex (sha256 bs)

end Stencil.Digest
