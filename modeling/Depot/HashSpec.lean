/-
Hash specs: a digest family and a digest in lower-case hexadecimal,
written `<algorithm>=<digest>`. A digest has at least sixteen digits,
since the first sixteen name the two directories that content of that
digest is kept in; a spec therefore carries the proof that they exist.
-/
import Depot.Digest.Algo
import Depot.Text.Split
import Depot.LinkError

namespace Depot

/-- How many digits of a digest the shard directories take up. -/
def shardWidth : Nat := 16

/-- A digest that content is expected to have. -/
structure HashSpec where
  algo : Digest.Algo
  /-- The digest, in lower-case hexadecimal. -/
  value : String
deriving DecidableEq, Repr

namespace HashSpec

/-- The family called `name`, which is matched exactly. -/
def algoNamed (name : String) : Except LinkError Digest.Algo :=
  match Digest.Algo.ofName? name with
  | some a => .ok a
  | none => .error (.unknownAlgo name)

/-- Whether `value` can serve as a digest: hexadecimal digits, and enough
of them. -/
def isDigest (value : String) : Bool :=
  shardWidth ≤ value.toList.length && value.toList.all Text.isHexDigit

/-- Reads `<algorithm>=<digest>`, in any case. Only the first `=`
separates. -/
def parse (raw : String) : Except LinkError HashSpec :=
  match Text.cutString? '=' raw with
  | none => .error (.invalidHashSpec raw)
  | some (name, digest) =>
      match algoNamed (Text.lower name) with
      | .error e => .error e
      | .ok algo =>
          let value := Text.lower digest
          if isDigest value then .ok ⟨algo, value⟩ else .error (.invalidHashSpec raw)

/-- The spec that `content` has under `algo`. -/
def ofContent (algo : Digest.Algo) (content : Bytes) : HashSpec :=
  ⟨algo, algo.hexDigest content⟩

/-- `<algorithm>=<digest>`. -/
def toText (spec : HashSpec) : String :=
  spec.algo.name ++ "=" ++ spec.value

/-- The two shard directories: the digest's first three digits, and the
thirteen after them. -/
def shards (spec : HashSpec) : String × String :=
  let digits := spec.value.toList
  (String.ofList (digits.take 3), String.ofList ((digits.take shardWidth).drop 3))

/-- Whether `content` has the digest. -/
def accepts (spec : HashSpec) (content : Bytes) : Bool :=
  spec.algo.hexDigest content = spec.value

end HashSpec

end Depot
