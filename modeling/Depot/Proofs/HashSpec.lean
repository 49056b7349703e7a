/-
Hash specs as text. A spec that was read is read again from its text
(`parse_toText`), and a spec that is read from the digest of some content
accepts the content (`accepts_of_parse`). Every spec that is read or made
of content has digits enough for its shards (`Genuine.isDigest`).
-/
import Depot.HashSpec
import Depot.Proofs.Text.Ascii

namespace Depot

namespace Text

/-- Hexadecimal digits are lower case. -/
theorem toLower_hexDigit : ∀ n < 16, (hexDigit n).toLower = hexDigit n := by
  decide

theorem lower_hex (bytes : Bytes) : lower (Bytes.hex bytes) = Bytes.hex bytes := by
  unfold lower Bytes.hex
  rw [String.toList_ofList]
  congr 1
  rw [List.map_flatMap]
  congr 1
  funext b
  have hb := b.toNat_lt
  rw [List.map_cons, List.map_singleton, toLower_hexDigit _ (by omega),
    toLower_hexDigit _ (by omega)]

theorem length_hex (bytes : Bytes) : (Bytes.hex bytes).toList.length = 2 * bytes.length := by
  unfold Bytes.hex
  rw [String.toList_ofList]
  induction bytes with
  | nil => rfl
  | cons b rest ih =>
      rw [List.flatMap_cons, List.length_append, ih, List.length_cons]
      simp only [List.length_cons, List.length_nil]
      omega

theorem isHexDigit_hexDigit : ∀ n < 16, isHexDigit (hexDigit n) = true := by
  decide

theorem all_isHexDigit_hex (bytes : Bytes) :
    (Bytes.hex bytes).toList.all isHexDigit = true := by
  unfold Bytes.hex
  rw [String.toList_ofList, List.all_flatMap, List.all_eq_true]
  intro b _
  have hb := b.toNat_lt
  simp [isHexDigit_hexDigit (b.toNat / 16) (by omega),
    isHexDigit_hexDigit (b.toNat % 16) (by omega)]

end Text

namespace Digest.Algo

theorem lower_hexDigest (a : Algo) (content : Bytes) :
    Text.lower (a.hexDigest content) = a.hexDigest content := by
  cases a <;> exact Text.lower_hex _

/-- How many octets a digest has. -/
def size : Algo → Nat
  | md5 => 16
  | sha224 => 28
  | sha256 => 32
  | sha384 => 48
  | sha512 => 64

/-- Whatever the content is, its digest has all its digits. -/
theorem length_hexDigest (a : Algo) (content : Bytes) :
    (a.hexDigest content).toList.length = 2 * a.size := by
  cases a <;> simp [hexDigest, BlockHash.digest, BlockHash.finish, Md5.hash, Sha2.sha224,
    Sha2.sha256, Sha2.sha384, Sha2.sha512, Sha2.hash32, Sha2.hash64, Sha2.Words.toList,
    Text.length_hex, littleEndian, bigEndian, size]

/-- A name is cut off a spec. -/
theorem cutString?_name (a : Algo) (digest : String) :
    Text.cutString? '=' (a.name ++ "=" ++ digest) = some (a.name, digest) := by
  unfold Text.cutString?
  rw [String.toList_append, String.toList_append]
  cases a <;> simp [name, Text.cut?]

theorem algoNamed_name (a : Algo) : HashSpec.algoNamed (Text.lower a.name) = .ok a := by
  cases a <;> rfl

end Digest.Algo

namespace HashSpec

/-- A name of a family and a digest are read as such. -/
theorem parse_eq (a : Digest.Algo) (digest : String) :
    parse (a.name ++ "=" ++ digest)
      = if isDigest (Text.lower digest) then .ok ⟨a, Text.lower digest⟩
        else .error (.invalidHashSpec (a.name ++ "=" ++ digest)) := by
  unfold parse
  rw [a.cutString?_name]
  dsimp only
  rw [a.algoNamed_name]

/-- What is read is a digest, in lower case. -/
theorem of_parse {raw : String} {spec : HashSpec} (h : parse raw = .ok spec) :
    isDigest spec.value = true ∧ Text.lower spec.value = spec.value := by
  unfold parse at h
  split at h
  · cases h
  · split at h
    · cases h
    · dsimp only at h
      split at h
      · next hdigest => cases h; exact ⟨hdigest, Text.lower_lower _⟩
      · cases h

/-- What was read is read again from its text. -/
theorem parse_toText {raw : String} {spec : HashSpec} (h : parse raw = .ok spec) :
    parse spec.toText = .ok spec := by
  obtain ⟨hdigest, hlower⟩ := of_parse h
  unfold toText
  rw [parse_eq, hlower, if_pos hdigest]

/-- A spec that is read from the digest of content accepts it. -/
theorem accepts_of_parse {a : Digest.Algo} {content : Bytes} {spec : HashSpec}
    (h : parse (a.name ++ "=" ++ a.hexDigest content) = .ok spec) :
    spec.accepts content = true := by
  rw [parse_eq, a.lower_hexDigest] at h
  split at h
  · cases h
    exact decide_eq_true rfl
  · cases h

/-- A digest of content can serve as one. -/
theorem isDigest_ofContent (a : Digest.Algo) (content : Bytes) :
    isDigest (ofContent a content).value = true := by
  have hlen := a.length_hexDigest content
  have hall : (a.hexDigest content).toList.all Text.isHexDigit = true := by
    cases a <;> exact Text.all_isHexDigit_hex _
  have hwide : shardWidth ≤ 2 * a.size := by cases a <;> decide
  unfold isDigest ofContent
  dsimp only
  rw [hall, hlen, decide_eq_true hwide]
  rfl

/-- A spec that the program makes: one that is read, or that of content. -/
def Genuine (spec : HashSpec) : Prop :=
  (∃ raw, parse raw = .ok spec) ∨ ∃ algo content, spec = ofContent algo content

theorem Genuine.isDigest {spec : HashSpec} (h : spec.Genuine) : isDigest spec.value = true := by
  rcases h with ⟨raw, hparse⟩ | ⟨algo, content, rfl⟩
  · exact (of_parse hparse).1
  · exact isDigest_ofContent algo content

end HashSpec

end Depot
