/-!
# SHA-384

The 384-bit digest of the SHA-2 family: the message is padded to blocks of 128 bytes,
and each block is folded into eight 64-bit words by eighty rounds.
-/

namespace LiveExpr.Sha384

/-- The first 64 bits of the fractional parts of the cube roots of the first eighty
primes. -/
def roundConstants : List UInt64 :=
  [ 0x428a2f98d728ae22, 0x7137449123ef65cd, 0xb5c0fbcfec4d3b2f, 0xe9b5dba58189dbbc,
    0x3956c25bf348b538, 0x59f111f1b605d019, 0x923f82a4af194f9b, 0xab1c5ed5da6d8118,
    0xd807aa98a3030242, 0x12835b0145706fbe, 0x243185be4ee4b28c, 0x550c7dc3d5ffb4e2,
    0x72be5d74f27b896f, 0x80deb1fe3b1696b1, 0x9bdc06a725c71235, 0xc19bf174cf692694,
    0xe49b69c19ef14ad2, 0xefbe4786384f25e3, 0x0fc19dc68b8cd5b5, 0x240ca1cc77ac9c65,
    0x2de92c6f592b0275, 0x4a7484aa6ea6e483, 0x5cb0a9dcbd41fbd4, 0x76f988da831153b5,
    0x983e5152ee66dfab, 0xa831c66d2db43210, 0xb00327c898fb213f, 0xbf597fc7beef0ee4,
    0xc6e00bf33da88fc2, 0xd5a79147930aa725, 0x06ca6351e003826f, 0x142929670a0e6e70,
    0x27b70a8546d22ffc, 0x2e1b21385c26c926, 0x4d2c6dfc5ac42aed, 0x53380d139d95b3df,
    0x650a73548baf63de, 0x766a0abb3c77b2a8, 0x81c2c92e47edaee6, 0x92722c851482353b,
    0xa2bfe8a14cf10364, 0xa81a664bbc423001, 0xc24b8b70d0f89791, 0xc76c51a30654be30,
    0xd192e819d6ef5218, 0xd69906245565a910, 0xf40e35855771202a, 0x106aa07032bbd1b8,
    0x19a4c116b8d2d0c8, 0x1e376c085141ab53, 0x2748774cdf8eeb99, 0x34b0bcb5e19b48a8,
    0x391c0cb3c5c95a63, 0x4ed8aa4ae3418acb, 0x5b9cca4f7763e373, 0x682e6ff3d6b2b8a3,
    0x748f82ee5defb2fc, 0x78a5636f43172f60, 0x84c87814a1f0ab72, 0x8cc702081a6439ec,
    0x90befffa23631e28, 0xa4506cebde82bde9, 0xbef9a3f7b2c67915, 0xc67178f2e372532b,
    0xca273eceea26619c, 0xd186b8c721c0c207, 0xeada7dd6cde0eb1e, 0xf57d4f7fee6ed178,
    0x06f067aa72176fba, 0x0a637dc5a2c898a6, 0x113f9804bef90dae, 0x1b710b35131c471b,
    0x28db77f523047d84, 0x32caab7b40c72493, 0x3c9ebe0a15c9bebc, 0x431d67c49c100d4c,
    0x4cc5d4becb3e42b6, 0x597f299cfc657e2a, 0x5fcb6fab3ad6faec, 0x6c44198c4a475817 ]

/-- The eight words that a digest is folded into. -/
structure Words where
  a : UInt64
  b : UInt64
  c : UInt64
  d : UInt64
  e : UInt64
  f : UInt64
  g : UInt64
  h : UInt64
deriving DecidableEq

/-- The first 64 bits of the fractional parts of the square roots of the ninth to the
sixteenth prime. -/
def Words.initial : Words where
  a := 0xcbbb9d5dc1059ed8
  b := 0x629a292a367cd507
  c := 0x9159015a3070dd17
  d := 0x152fecd8f70e5939
  e := 0x67332667ffc00b31
  f := 0x8eb44a8768581511
  g := 0xdb0c2e0d64f98fa7
  h := 0x47b5481dbefa4fa4

/-- Wordwise sum. -/
def Words.add (x y : Words) : Words where
  a := x.a + y.a
  b := x.b + y.b
  c := x.c + y.c
  d := x.d + y.d
  e := x.e + y.e
  f := x.f + y.f
  g := x.g + y.g
  h := x.h + y.h

/-- Rotation to the right by `n` bits, for `n` from 1 to 63. -/
def rotate (x n : UInt64) : UInt64 :=
  (x >>> n) ||| (x <<< (64 - n))

/-- One round, with its constant and its word of the schedule. -/
def Words.round (s : Words) (constant word : UInt64) : Words :=
  let upper := rotate s.e 14 ^^^ rotate s.e 18 ^^^ rotate s.e 41
  let choice := (s.e &&& s.f) ^^^ (~~~s.e &&& s.g)
  let first := s.h + upper + choice + constant + word
  let lower := rotate s.a 28 ^^^ rotate s.a 34 ^^^ rotate s.a 39
  let majority := (s.a &&& s.b) ^^^ (s.a &&& s.c) ^^^ (s.b &&& s.c)
  { a := first + (lower + majority)
    b := s.a
    c := s.b
    d := s.c
    e := s.d + first
    f := s.e
    g := s.f
    h := s.g }

/-- The word that follows sixteen words of the schedule. -/
def nextWord (window : List UInt64) : UInt64 :=
  let x := window.getD 1 0
  let y := window.getD 14 0
  (rotate y 19 ^^^ rotate y 61 ^^^ (y >>> 6)) + window.getD 9 0
    + (rotate x 1 ^^^ rotate x 8 ^^^ (x >>> 7)) + window.getD 0 0

/-- The rounds of a block; `window` holds the next sixteen words of the schedule. -/
def rounds : List UInt64 → List UInt64 → Words → Words
  | [], _, s => s
  | constant :: constants, window, s =>
    rounds constants (window.drop 1 ++ [nextWord window])
      (s.round constant (window.getD 0 0))

/-- Folds a block of sixteen words. -/
def foldBlock (s : Words) (block : List UInt64) : Words :=
  s.add (rounds roundConstants block s)

/-- The big-endian value of bytes. -/
def ofBytes (bytes : List UInt8) : Nat :=
  bytes.foldl (fun n b => 256 * n + b.toNat) 0

/-- The `width` low bytes of a number, the highest first. -/
def toBytes : Nat → Nat → List UInt8
  | 0, _ => []
  | width + 1, n => toBytes width (n / 256) ++ [UInt8.ofNat n]

/-- The message followed by a one bit, zeros up to the end of a block, and its length in
bits as 16 bytes. -/
def padded (message : List UInt8) : List UInt8 :=
  let zeros := (239 - message.length % 128) % 128
  message ++ 0x80 :: List.replicate zeros 0 ++ toBytes 16 (8 * message.length)

/-- The first `count` pieces of `size` items. -/
def pieces {α : Type} (size : Nat) : Nat → List α → List (List α)
  | 0, _ => []
  | count + 1, items => items.take size :: pieces size count (items.drop size)

/-- The words of a block of 128 bytes. -/
def blockWords (block : List UInt8) : List UInt64 :=
  (pieces 8 16 block).map fun bytes => UInt64.ofNat (ofBytes bytes)

/-- The digest of a message: 48 bytes. -/
def digest (message : List UInt8) : List UInt8 :=
  let text := padded message
  let blocks := (pieces 128 (text.length / 128) text).map blockWords
  let s := blocks.foldl foldBlock .initial
  [s.a, s.b, s.c, s.d, s.e, s.f].flatMap fun word => toBytes 8 word.toNat

end LiveExpr.Sha384
