/-
The MD5 message digest: four 32-bit words, little-endian, four rounds of
sixteen steps a block.
-/
import Depot.Digest.Stream

namespace Depot.Digest.Md5

/-- The chaining words. -/
structure Words where
  a : UInt32
  b : UInt32
  c : UInt32
  d : UInt32
deriving DecidableEq, Repr

/-- Rotation to the left by `n` bits, `n` between 1 and 31. -/
def rotl (x n : UInt32) : UInt32 := (x <<< n) ||| (x >>> (32 - n))

/-- The additive constants, the integer part of `2 ^ 32 · |sin i|`. -/
def sines : List UInt32 :=
  [0xd76aa478, 0xe8c7b756, 0x242070db, 0xc1bdceee, 0xf57c0faf, 0x4787c62a, 0xa8304613, 0xfd469501,
   0x698098d8, 0x8b44f7af, 0xffff5bb1, 0x895cd7be, 0x6b901122, 0xfd987193, 0xa679438e, 0x49b40821,
   0xf61e2562, 0xc040b340, 0x265e5a51, 0xe9b6c7aa, 0xd62f105d, 0x02441453, 0xd8a1e681, 0xe7d3fbc8,
   0x21e1cde6, 0xc33707d6, 0xf4d50d87, 0x455a14ed, 0xa9e3e905, 0xfcefa3f8, 0x676f02d9, 0x8d2a4c8a,
   0xfffa3942, 0x8771f681, 0x6d9d6122, 0xfde5380c, 0xa4beea44, 0x4bdecfa9, 0xf6bb4b60, 0xbebfbc70,
   0x289b7ec6, 0xeaa127fa, 0xd4ef3085, 0x04881d05, 0xd9d4d039, 0xe6db99e5, 0x1fa27cf8, 0xc4ac5665,
   0xf4292244, 0x432aff97, 0xab9423a7, 0xfc93a039, 0x655b59c3, 0x8f0ccc92, 0xffeff47d, 0x85845dd1,
   0x6fa87e4f, 0xfe2ce6e0, 0xa3014314, 0x4e0811a1, 0xf7537e82, 0xbd3af235, 0x2ad7d2bb, 0xeb86d391]

/-- The rotations of a round, in turn. -/
def shifts (round : Nat) : List UInt32 :=
  match round with
  | 0 => [7, 12, 17, 22]
  | 1 => [5, 9, 14, 20]
  | 2 => [4, 11, 16, 23]
  | _ => [6, 10, 15, 21]

/-- The round's mixing function. -/
def mix (round : Nat) (x y z : UInt32) : UInt32 :=
  match round with
  | 0 => (x &&& y) ||| (~~~x &&& z)
  | 1 => (x &&& z) ||| (y &&& ~~~z)
  | 2 => x ^^^ y ^^^ z
  | _ => y ^^^ (x ||| ~~~z)

/-- Which word of the block step `i` reads. -/
def wordAt (i : Nat) : Nat :=
  match i / 16 with
  | 0 => i
  | 1 => (5 * i + 1) % 16
  | 2 => (3 * i + 5) % 16
  | _ => 7 * i % 16

/-- The words of a block. -/
def wordsOf : Bytes → List UInt32
  | p :: q :: r :: s :: rest =>
      (p.toUInt32 ||| (q.toUInt32 <<< 8) ||| (r.toUInt32 <<< 16) ||| (s.toUInt32 <<< 24))
        :: wordsOf rest
  | _ => []

/-- Step `i` with its additive constant. -/
def step (block : Array UInt32) (w : Words) (i : Nat) (sine : UInt32) : Words :=
  let sum := w.a + mix (i / 16) w.b w.c w.d + sine + block[wordAt i]?.getD 0
  { a := w.d
    b := w.b + rotl sum ((shifts (i / 16))[i % 4]?.getD 0)
    c := w.b
    d := w.c }

/-- One block. -/
def compress (w : Words) (block : Bytes) : Words :=
  let words := (wordsOf block).toArray
  let out := (sines.zipIdx).foldl (fun w (sine, i) => step words w i sine) w
  ⟨w.a + out.a, w.b + out.b, w.c + out.c, w.d + out.d⟩

/-- MD5 as a block hash. -/
def hash : BlockHash Words where
  blockSize := 64
  start := ⟨0x67452301, 0xefcdab89, 0x98badcfe, 0x10325476⟩
  compress := compress
  padding total := onePadding 64 8 total ++ littleEndian 8 (8 * total)
  output w := [w.a, w.b, w.c, w.d].flatMap fun word => littleEndian 4 word.toNat

end Depot.Digest.Md5
