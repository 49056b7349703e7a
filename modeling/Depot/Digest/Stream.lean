/-
Block hashes that take their message in any portions. A `BlockHash` says
how one full block changes the chaining state and how a message is
padded; a `Stream` holds the state after some octets together with those
that do not fill a block yet. Octets are absorbed one at a time, so how
a message is cut into portions cannot matter (`update_append`).
-/
import Depot.Bytes

namespace Depot.Digest

/-- A hash that folds a padded message block by block. -/
structure BlockHash (σ : Type) where
  blockSize : Nat
  start : σ
  compress : σ → Bytes → σ
  /-- What completes a message of the given number of octets. -/
  padding : Nat → Bytes
  output : σ → Bytes

/-- A hash over the octets absorbed so far. -/
structure Stream (σ : Type) where
  chain : σ
  /-- The octets of the unfinished block, last one first. -/
  pending : Bytes
  pendingSize : Nat
  total : Nat
deriving Repr

namespace BlockHash

variable {σ : Type} (h : BlockHash σ)

/-- Nothing absorbed yet. -/
def init : Stream σ := ⟨h.start, [], 0, 0⟩

/-- Takes one octet, and compresses the block it completes. -/
def absorb (s : Stream σ) (b : UInt8) : Stream σ :=
  if s.pendingSize + 1 = h.blockSize then
    ⟨h.compress s.chain (b :: s.pending).reverse, [], 0, s.total + 1⟩
  else
    ⟨s.chain, b :: s.pending, s.pendingSize + 1, s.total + 1⟩

/-- Takes a portion of the message. -/
def update (s : Stream σ) (portion : Bytes) : Stream σ :=
  portion.foldl h.absorb s

/-- The digest of everything absorbed. -/
def finish (s : Stream σ) : Bytes :=
  h.output (h.update s (h.padding s.total)).chain

/-- The digest of a whole message. -/
def digest (message : Bytes) : Bytes :=
  h.finish (h.update h.init message)

@[simp] theorem update_nil (s : Stream σ) : h.update s [] = s := rfl

/-- Two portions in a row are one portion. -/
theorem update_append (s : Stream σ) (a b : Bytes) :
    h.update s (a ++ b) = h.update (h.update s a) b :=
  List.foldl_append ..

end BlockHash

/-- The octets of `n` in `width` places, most significant first. -/
def bigEndian (width n : Nat) : Bytes :=
  (List.range width).reverse.map fun i => UInt8.ofNat (n / Nat.pow 256 i)

/-- The octets of `n` in `width` places, least significant first. -/
def littleEndian (width n : Nat) : Bytes :=
  (List.range width).map fun i => UInt8.ofNat (n / Nat.pow 256 i)

/-- A one bit, then zeros until `lengthSize` octets are missing to a
multiple of `blockSize`. -/
def onePadding (blockSize lengthSize total : Nat) : Bytes :=
  0x80 :: List.replicate
    ((2 * blockSize - 1 - lengthSize - total % blockSize) % blockSize) 0

end Depot.Digest
