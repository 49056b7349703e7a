/-
The SHA-2 family: eight chaining words, big-endian, of 32 bits with 64
rounds (SHA-224, SHA-256) or of 64 bits with 80 (SHA-384, SHA-512). The
short members are the long ones with other start words and the digest
cut off.
-/
import Depot.Digest.Stream

namespace Depot.Digest.Sha2

/-- The chaining words. -/
structure Words (ω : Type) where
  a : ω
  b : ω
  c : ω
  d : ω
  e : ω
  f : ω
  g : ω
  h : ω
deriving DecidableEq, Repr

namespace Words

variable {ω : Type}

/-- The words in order. -/
def toList (w : Words ω) : List ω := [w.a, w.b, w.c, w.d, w.e, w.f, w.g, w.h]

/-- The word-wise sum. -/
def add [Add ω] (x y : Words ω) : Words ω :=
  ⟨x.a + y.a, x.b + y.b, x.c + y.c, x.d + y.d, x.e + y.e, x.f + y.f, x.g + y.g, x.h + y.h⟩

end Words

-- ================================================ 32-bit words

/-- Rotation to the right by `n` bits, `n` between 1 and 31. -/
def rotr32 (x n : UInt32) : UInt32 := (x >>> n) ||| (x <<< (32 - n))

/-- The round constants of SHA-224 and SHA-256. -/
def constants32 : List UInt32 :=
  [0x428a2f98, 0x71374491, 0xb5c0fbcf, 0xe9b5dba5, 0x3956c25b, 0x59f111f1, 0x923f82a4, 0xab1c5ed5,
   0xd807aa98, 0x12835b01, 0x243185be, 0x550c7dc3, 0x72be5d74, 0x80deb1fe, 0x9bdc06a7, 0xc19bf174,
   0xe49b69c1, 0xefbe4786, 0x0fc19dc6, 0x240ca1cc, 0x2de92c6f, 0x4a7484aa, 0x5cb0a9dc, 0x76f988da,
   0x983e5152, 0xa831c66d, 0xb00327c8, 0xbf597fc7, 0xc6e00bf3, 0xd5a79147, 0x06ca6351, 0x14292967,
   0x27b70a85, 0x2e1b2138, 0x4d2c6dfc, 0x53380d13, 0x650a7354, 0x766a0abb, 0x81c2c92e, 0x92722c85,
   0xa2bfe8a1, 0xa81a664b, 0xc24b8b70, 0xc76c51a3, 0xd192e819, 0xd6990624, 0xf40e3585, 0x106aa070,
   0x19a4c116, 0x1e376c08, 0x2748774c, 0x34b0bcb5, 0x391c0cb3, 0x4ed8aa4a, 0x5b9cca4f, 0x682e6ff3,
   0x748f82ee, 0x78a5636f, 0x84c87814, 0x8cc70208, 0x90befffa, 0xa4506ceb, 0xbef9a3f7, 0xc67178f2]

/-- The words of a block. -/
def wordsOf32 : Bytes → List UInt32
  | p :: q :: r :: s :: rest =>
      ((p.toUInt32 <<< 24) ||| (q.toUInt32 <<< 16) ||| (r.toUInt32 <<< 8) ||| s.toUInt32)
        :: wordsOf32 rest
  | _ => []

/-- The schedule word sixteen places after the first of `window`. -/
def nextWord32 : List UInt32 → UInt32
  | [w0, w1, _, _, _, _, _, _, _, w9, _, _, _, _, w14, _] =>
      let s0 := rotr32 w1 7 ^^^ rotr32 w1 18 ^^^ (w1 >>> 3)
      let s1 := rotr32 w14 17 ^^^ rotr32 w14 19 ^^^ (w14 >>> 10)
      w0 + s0 + w9 + s1
  | _ => 0

/-- One round, with its constant and its schedule word. -/
def round32 (s : Words UInt32) (k w : UInt32) : Words UInt32 :=
  let s1 := rotr32 s.e 6 ^^^ rotr32 s.e 11 ^^^ rotr32 s.e 25
  let choice := (s.e &&& s.f) ^^^ (~~~s.e &&& s.g)
  let t1 := s.h + s1 + choice + k + w
  let s0 := rotr32 s.a 2 ^^^ rotr32 s.a 13 ^^^ rotr32 s.a 22
  let majority := (s.a &&& s.b) ^^^ (s.a &&& s.c) ^^^ (s.b &&& s.c)
  ⟨t1 + (s0 + majority), s.a, s.b, s.c, s.d + t1, s.e, s.f, s.g⟩

/-- The rounds over the remaining constants; `window` holds the next
sixteen schedule words. -/
def rounds32 : List UInt32 → List UInt32 → Words UInt32 → Words UInt32
  | [], _, s => s
  | _, [], s => s
  | k :: ks, w :: window, s =>
      rounds32 ks (window ++ [nextWord32 (w :: window)]) (round32 s k w)

/-- One block. -/
def compress32 (s : Words UInt32) (block : Bytes) : Words UInt32 :=
  s.add (rounds32 constants32 (wordsOf32 block) s)

/-- A member with 32-bit words and a digest of `size` octets. -/
def hash32 (start : Words UInt32) (size : Nat) : BlockHash (Words UInt32) where
  blockSize := 64
  start := start
  compress := compress32
  padding total := onePadding 64 8 total ++ bigEndian 8 (8 * total)
  output s := (s.toList.flatMap fun word => bigEndian 4 word.toNat).take size

/-- SHA-224. -/
def sha224 : BlockHash (Words UInt32) :=
  hash32 ⟨0xc1059ed8, 0x367cd507, 0x3070dd17, 0xf70e5939,
    0xffc00b31, 0x68581511, 0x64f98fa7, 0xbefa4fa4⟩ 28

/-- SHA-256. -/
def sha256 : BlockHash (Words UInt32) :=
  hash32 ⟨0x6a09e667, 0xbb67ae85, 0x3c6ef372, 0xa54ff53a,
    0x510e527f, 0x9b05688c, 0x1f83d9ab, 0x5be0cd19⟩ 32

-- ================================================ 64-bit words

/-- Rotation to the right by `n` bits, `n` between 1 and 63. -/
def rotr64 (x n : UInt64) : UInt64 := (x >>> n) ||| (x <<< (64 - n))

/-- The round constants of SHA-384 and SHA-512. -/
def constants64 : List UInt64 :=
  [0x428a2f98d728ae22, 0x7137449123ef65cd, 0xb5c0fbcfec4d3b2f, 0xe9b5dba58189dbbc,
   0x3956c25bf348b538, 0x59f111f1b605d019, 0x923f82a4af194f9b, 0xab1c5ed5da6d8118,
   0xd807aa98a3030242, 0x12835b0145706fbe, 0x243185be4ee4b28c, 0x550c7dc3d5ffb4e2,
   0x72be5d74f27b896f, 0x80deb1fe3b1696b1, 0x9bdc06a725c71235, 0xc19bf174cf692694,
   0xe49b69c19ef14ad2, 0xefbe4786384f25e3, 0x0fc19dc68b8cd5b5, 0x240ca1cc77ac9c65,
   0x2de92c6f592b0275, 0x4a7484aa6ea6e483, 0x5cb0a9dcbd41fbd4, 0x76f988da831153b5,
   0x983e5152ee66dfab, 0xa831c66d2db43210, 0xb00327c898fb213f, 0xbf597fc7beef0ee4,
   0xc6e00bf33da88fc2, 0xd5a79147930aa725, 0x06ca6351e003826f, 0x142929670a0e6e70,
   0x27b70a8546d22ffc, 0x2e1b21385c26c926, 0x4d2c6dfc5ac42aed, 0x53380d139d95b3df,
   0x650a73548baf63de, 0x766a0abb3c77b2a8, 0x81c2c92e47edaee6, 0x92722c851482353b,
   0xa2bfe8a14cf10364, 0xa81a664bbc423001, 0xc24b8b70d0f89791, 0xc76c51a30654be30,
   0xd192e819d6ef5218, 0xd69906245565a910, 0xf40e35855771202a, 0x106aa07032bbd1b8,
   0x19a4c116b8d2d0c8, 0x1e376c085141ab53, 0x2748774cdf8eeb99, 0x34b0bcb5e19b48a8,
   0x391c0cb3c5c95a63, 0x4ed8aa4ae3418acb, 0x5b9cca4f7763e373, 0x682e6ff3d6b2b8a3,
   0x748f82ee5defb2fc, 0x78a5636f43172f60, 0x84c87814a1f0ab72, 0x8cc702081a6439ec,
   0x90befffa23631e28, 0xa4506cebde82bde9, 0xbef9a3f7b2c67915, 0xc67178f2e372532b,
   0xca273eceea26619c, 0xd186b8c721c0c207, 0xeada7dd6cde0eb1e, 0xf57d4f7fee6ed178,
   0x06f067aa72176fba, 0x0a637dc5a2c898a6, 0x113f9804bef90dae, 0x1b710b35131c471b,
   0x28db77f523047d84, 0x32caab7b40c72493, 0x3c9ebe0a15c9bebc, 0x431d67c49c100d4c,
   0x4cc5d4becb3e42b6, 0x597f299cfc657e2a, 0x5fcb6fab3ad6faec, 0x6c44198c4a475817]

/-- The words of a block. -/
def wordsOf64 : Bytes → List UInt64
  | p :: q :: r :: s :: t :: u :: v :: w :: rest =>
      ((p.toUInt64 <<< 56) ||| (q.toUInt64 <<< 48) ||| (r.toUInt64 <<< 40) ||| (s.toUInt64 <<< 32)
        ||| (t.toUInt64 <<< 24) ||| (u.toUInt64 <<< 16) ||| (v.toUInt64 <<< 8) ||| w.toUInt64)
        :: wordsOf64 rest
  | _ => []

/-- The schedule word sixteen places after the first of `window`. -/
def nextWord64 : List UInt64 → UInt64
  | [w0, w1, _, _, _, _, _, _, _, w9, _, _, _, _, w14, _] =>
      let s0 := rotr64 w1 1 ^^^ rotr64 w1 8 ^^^ (w1 >>> 7)
      let s1 := rotr64 w14 19 ^^^ rotr64 w14 61 ^^^ (w14 >>> 6)
      w0 + s0 + w9 + s1
  | _ => 0

/-- One round, with its constant and its schedule word. -/
def round64 (s : Words UInt64) (k w : UInt64) : Words UInt64 :=
  let s1 := rotr64 s.e 14 ^^^ rotr64 s.e 18 ^^^ rotr64 s.e 41
  let choice := (s.e &&& s.f) ^^^ (~~~s.e &&& s.g)
  let t1 := s.h + s1 + choice + k + w
  let s0 := rotr64 s.a 28 ^^^ rotr64 s.a 34 ^^^ rotr64 s.a 39
  let majority := (s.a &&& s.b) ^^^ (s.a &&& s.c) ^^^ (s.b &&& s.c)
  ⟨t1 + (s0 + majority), s.a, s.b, s.c, s.d + t1, s.e, s.f, s.g⟩

/-- The rounds over the remaining constants; `window` holds the next
sixteen schedule words. -/
def rounds64 : List UInt64 → List UInt64 → Words UInt64 → Words UInt64
  | [], _, s => s
  | _, [], s => s
  | k :: ks, w :: window, s =>
      rounds64 ks (window ++ [nextWord64 (w :: window)]) (round64 s k w)

/-- One block. -/
def compress64 (s : Words UInt64) (block : Bytes) : Words UInt64 :=
  s.add (rounds64 constants64 (wordsOf64 block) s)

/-- A member with 64-bit words and a digest of `size` octets. -/
def hash64 (start : Words UInt64) (size : Nat) : BlockHash (Words UInt64) where
  blockSize := 128
  start := start
  compress := compress64
  padding total := onePadding 128 16 total ++ bigEndian 16 (8 * total)
  output s := (s.toList.flatMap fun word => bigEndian 8 word.toNat).take size

/-- SHA-384. -/
def sha384 : BlockHash (Words UInt64) :=
  hash64 ⟨0xcbbb9d5dc1059ed8, 0x629a292a367cd507, 0x9159015a3070dd17, 0x152fecd8f70e5939,
    0x67332667ffc00b31, 0x8eb44a8768581511, 0xdb0c2e0d64f98fa7, 0x47b5481dbefa4fa4⟩ 48

/-- SHA-512. -/
def sha512 : BlockHash (Words UInt64) :=
  hash64 ⟨0x6a09e667f3bcc908, 0xbb67ae8584caa73b, 0x3c6ef372fe94f82b, 0xa54ff53a5f1d36f1,
    0x510e527fade682d1, 0x9b05688c2b3e6c1f, 0x1f83d9abfb41bd6b, 0x5be0cd19137e2179⟩ 64

end Depot.Digest.Sha2
