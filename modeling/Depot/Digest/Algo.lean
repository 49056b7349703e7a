/-
The digest families a depot can compute. A `Hasher` takes content in any
portions; `Algo.hexDigest` is the digest of the whole, and the two agree
however the content is cut (`hexDigest_eq_feed`).
-/
import Depot.Digest.Md5
import Depot.Digest.Sha2

namespace Depot.Digest

/-- A digest family that content can be verified with. -/
inductive Algo where
  | md5
  | sha224
  | sha256
  | sha384
  | sha512
deriving DecidableEq, Repr, Inhabited

namespace Algo

/-- Every family. -/
def all : List Algo := [.md5, .sha224, .sha256, .sha384, .sha512]

/-- The name a family goes by, in lower case. -/
def name : Algo → String
  | md5 => "md5"
  | sha224 => "sha224"
  | sha256 => "sha256"
  | sha384 => "sha384"
  | sha512 => "sha512"

/-- The family of exactly this name. -/
def ofName? (s : String) : Option Algo :=
  all.find? fun a => a.name = s

end Algo

/-- Digest names in use elsewhere that a depot knows of and cannot
verify. -/
def unsupportedNames : List String :=
  ["sha1", "sha3_224", "sha3_256", "sha3_384", "sha3_512", "blake2b", "blake2s",
   "shake_128", "shake_256", "whirlpool", "ripemd160", "crc32"]

/-- Whether `key` names a digest, supported or not, in any case. -/
def isName (key : String) : Bool :=
  let key := Text.lower key
  (Algo.ofName? key).isSome || unsupportedNames.contains key

/-- A digest in progress. -/
inductive Hasher where
  | md5 (s : Stream Md5.Words)
  | sha224 (s : Stream (Sha2.Words UInt32))
  | sha256 (s : Stream (Sha2.Words UInt32))
  | sha384 (s : Stream (Sha2.Words UInt64))
  | sha512 (s : Stream (Sha2.Words UInt64))
deriving Repr

namespace Hasher

/-- Takes a portion of the content. -/
def update (portion : Bytes) : Hasher → Hasher
  | md5 s => .md5 (Md5.hash.update s portion)
  | sha224 s => .sha224 (Sha2.sha224.update s portion)
  | sha256 s => .sha256 (Sha2.sha256.update s portion)
  | sha384 s => .sha384 (Sha2.sha384.update s portion)
  | sha512 s => .sha512 (Sha2.sha512.update s portion)

/-- The digest of everything taken, in lower-case hexadecimal. -/
def finishHex : Hasher → String
  | md5 s => Bytes.hex (Md5.hash.finish s)
  | sha224 s => Bytes.hex (Sha2.sha224.finish s)
  | sha256 s => Bytes.hex (Sha2.sha256.finish s)
  | sha384 s => Bytes.hex (Sha2.sha384.finish s)
  | sha512 s => Bytes.hex (Sha2.sha512.finish s)

/-- Two portions in a row are one portion. -/
theorem update_append (a b : Bytes) (h : Hasher) :
    h.update (a ++ b) = (h.update a).update b := by
  cases h <;> simp only [update, BlockHash.update_append]

@[simp] theorem update_nil (h : Hasher) : h.update [] = h := by
  cases h <;> rfl

end Hasher

namespace Algo

/-- A hasher that has taken nothing yet. -/
def hasher : Algo → Hasher
  | md5 => .md5 Md5.hash.init
  | sha224 => .sha224 Sha2.sha224.init
  | sha256 => .sha256 Sha2.sha256.init
  | sha384 => .sha384 Sha2.sha384.init
  | sha512 => .sha512 Sha2.sha512.init

/-- The digest of `content`, in lower-case hexadecimal. -/
def hexDigest : Algo → Bytes → String
  | md5, content => Bytes.hex (Md5.hash.digest content)
  | sha224, content => Bytes.hex (Sha2.sha224.digest content)
  | sha256, content => Bytes.hex (Sha2.sha256.digest content)
  | sha384, content => Bytes.hex (Sha2.sha384.digest content)
  | sha512, content => Bytes.hex (Sha2.sha512.digest content)

/-- Feeding the portions one after the other gives the digest of the
whole. -/
theorem hexDigest_eq_feed (a : Algo) (portions : List Bytes) :
    (portions.foldl (fun h p => h.update p) a.hasher).finishHex
      = a.hexDigest portions.flatten := by
  have feed : ∀ (ps : List Bytes) (h : Hasher),
      ps.foldl (fun h p => h.update p) h = h.update ps.flatten := by
    intro ps
    induction ps with
    | nil => intro h; simp
    | cons p ps ih =>
        intro h
        rw [List.foldl_cons, ih, List.flatten_cons, Hasher.update_append]
  rw [feed]
  cases a <;> rfl

end Algo

end Depot.Digest
