/-
Which texts are hash specs, and how a spec is spelled. A text is read just if
it is the name of a family and a digest with a `=` between, in any case
(`parse_eq_ok_iff`); the spec that is read spells the text in lower case
(`toText_of_parse`). A digest has digits only, each of one octet, and enough
of them, so that its shards can be cut out of it by octets
(`Genuine.shardsByOctets?`).
-/
import Depot.Proofs.HashSpec
import Depot.Proofs.Text.Octets
import Depot.Proofs.Text.Split

namespace Depot

namespace Digest.Algo

theorem ofName?_eq_some_iff {s : String} {a : Algo} : ofName? s = some a ↔ s = a.name := by
  constructor
  · intro h
    have hname := List.find?_some h
    exact (of_decide_eq_true hname).symm
  · rintro rfl
    cases a <;> rfl

end Digest.Algo

namespace HashSpec

variable {raw : String} {spec : HashSpec}

-- ===================================================== reading

theorem algoNamed_eq_ok_iff {name : String} {a : Digest.Algo} :
    algoNamed name = .ok a ↔ name = a.name := by
  unfold algoNamed
  rw [← Digest.Algo.ofName?_eq_some_iff]
  cases Digest.Algo.ofName? name with
  | none => exact iff_of_false nofun nofun
  | some found => simp

/-- A digest, digit by digit. -/
theorem isDigest_iff {digest : String} : isDigest digest = true ↔
    16 ≤ digest.toList.length ∧ ∀ c ∈ digest.toList, Text.isHexDigit c = true := by
  unfold isDigest shardWidth
  rw [Bool.and_eq_true, decide_eq_true_eq, List.all_eq_true]

theorem isDigest_lower (digest : String) : isDigest (Text.lower digest) = isDigest digest := by
  rw [Bool.eq_iff_iff, isDigest_iff, isDigest_iff, Text.toList_lower, List.length_map,
    List.forall_mem_map]
  simp only [Text.isHexDigit_toLower]

/-- What is read is the name of a family and a digest, in any case. -/
theorem parse_eq_ok_iff : parse raw = .ok spec ↔
    ∃ name digest, raw = name ++ "=" ++ digest ∧ '=' ∉ name.toList
      ∧ Text.lower name = spec.algo.name ∧ isDigest digest = true
      ∧ spec.value = Text.lower digest := by
  constructor
  · intro h
    unfold parse at h
    split at h
    · cases h
    · next name digest hcut =>
      obtain ⟨hraw, hfirst⟩ := Text.cutString?_equals.1 hcut
      split at h
      · cases h
      · next algo hname =>
        dsimp only at h
        rw [isDigest_lower] at h
        split at h
        · next hdigest =>
          cases h
          exact ⟨name, digest, hraw, hfirst, algoNamed_eq_ok_iff.1 hname, hdigest, rfl⟩
        · cases h
  · rintro ⟨name, digest, rfl, hfirst, hname, hdigest, hvalue⟩
    unfold parse
    rw [Text.cutString?_equals.2 ⟨rfl, hfirst⟩]
    dsimp only
    rw [algoNamed_eq_ok_iff.2 hname]
    dsimp only
    rw [isDigest_lower, if_pos hdigest, ← hvalue]

/-- A spec spells what it was read from, in lower case. -/
theorem toText_of_parse (h : parse raw = .ok spec) : spec.toText = Text.lower raw := by
  obtain ⟨name, digest, rfl, -, hname, -, hvalue⟩ := parse_eq_ok_iff.1 h
  unfold toText
  rw [Text.lower_append, Text.lower_append, hname, hvalue]
  rfl

/-- So does the spec of any content; it is read again from its text. -/
theorem Genuine.parse_toText (h : spec.Genuine) : parse spec.toText = .ok spec := by
  rcases h with ⟨raw, hparse⟩ | ⟨algo, content, rfl⟩
  · exact HashSpec.parse_toText hparse
  · have hdigest := isDigest_ofContent algo content
    unfold toText ofContent at *
    rw [parse_eq, algo.lower_hexDigest, if_pos hdigest]

-- ===================================================== shards

/-- The shards, cut out of the digest by octets; none if a cut does not fall
between two characters. -/
def shardsByOctets? (spec : HashSpec) : Option (String × String) := do
  let first ← Text.octets? spec.value 0 3
  let second ← Text.octets? spec.value 3 shardWidth
  return (first, second)

theorem isNarrow_of_isDigest {digest : String} (h : isDigest digest = true) :
    Text.IsNarrow digest.toList := by
  intro c hc
  have hdigit := Text.isHexDigit_iff.1 ((isDigest_iff.1 h).2 c hc)
  rw [Char.utf8Size_eq_one_iff, UInt32.le_iff_toNat_le]
  show c.toNat ≤ 127
  omega

/-- Every cut for the shards falls between two characters. -/
theorem Genuine.shardsByOctets? (h : spec.Genuine) :
    spec.shardsByOctets? = some spec.shards := by
  have hnarrow := isNarrow_of_isDigest h.isDigest
  have hlength := (isDigest_iff.1 h.isDigest).1
  unfold HashSpec.shardsByOctets? shards shardWidth
  rw [Text.octets?_of_narrow hnarrow (by omega) (by omega),
    Text.octets?_of_narrow hnarrow (by omega) (by omega), List.drop_zero]
  rfl

/-- The shards have three octets and thirteen, and are the first sixteen
digits. -/
theorem Genuine.shards_spec (h : spec.Genuine) :
    spec.shards.1.utf8ByteSize = 3 ∧ spec.shards.2.utf8ByteSize = 13
      ∧ spec.shards.1 ++ spec.shards.2 = String.ofList (spec.value.toList.take 16) := by
  have hnarrow := isNarrow_of_isDigest h.isDigest
  have hlength := (isDigest_iff.1 h.isDigest).1
  unfold shards shardWidth
  dsimp only
  refine ⟨?_, ?_, ?_⟩
  · rw [Text.IsNarrow.utf8ByteSize fun c hc => hnarrow c (List.mem_of_mem_take hc),
      List.length_take]
    omega
  · rw [Text.IsNarrow.utf8ByteSize fun c hc =>
        hnarrow c (List.mem_of_mem_take (List.mem_of_mem_drop hc)),
      List.length_drop, List.length_take]
    omega
  · have hwhole := List.take_append_drop 3 (spec.value.toList.take 16)
    rw [List.take_take] at hwhole
    rw [← String.ofList_append]
    exact congrArg String.ofList hwhole

-- ===================================================== specs

/-- A text is a hash spec just if it is the name of a family and a digest of
sixteen hexadecimal digits or more, in any case, with the first `=` between.
The spec spells the text in lower case, and is read again from there. The
shards of a spec can always be cut out of its digest: they are its first three
digits and the thirteen behind them. -/
theorem read_exactly :
    (∀ raw, (∃ spec, parse raw = .ok spec) ↔
        ∃ name digest, raw = name ++ "=" ++ digest ∧ '=' ∉ name.toList
          ∧ Text.lower name ∈ ["md5", "sha224", "sha256", "sha384", "sha512"]
          ∧ 16 ≤ digest.toList.length ∧ ∀ c ∈ digest.toList, Text.isHexDigit c = true)
      ∧ (∀ raw spec, parse raw = .ok spec →
          spec.toText = Text.lower raw ∧ parse spec.toText = .ok spec)
      ∧ ∀ spec : HashSpec, spec.Genuine →
          ∃ first second, spec.shardsByOctets? = some (first, second)
            ∧ spec.shards = (first, second)
            ∧ first.utf8ByteSize = 3 ∧ second.utf8ByteSize = 13
            ∧ first ++ second = String.ofList (spec.value.toList.take 16) := by
  have hnames : ∀ name, name ∈ ["md5", "sha224", "sha256", "sha384", "sha512"] ↔
      ∃ a : Digest.Algo, name = a.name := by
    intro name
    constructor
    · intro hmem
      simp only [List.mem_cons, List.not_mem_nil, or_false] at hmem
      rcases hmem with rfl | rfl | rfl | rfl | rfl
      · exact ⟨.md5, rfl⟩
      · exact ⟨.sha224, rfl⟩
      · exact ⟨.sha256, rfl⟩
      · exact ⟨.sha384, rfl⟩
      · exact ⟨.sha512, rfl⟩
    · rintro ⟨a, rfl⟩
      cases a <;> decide
  refine ⟨fun raw => ?_, fun raw spec h => ⟨toText_of_parse h, HashSpec.parse_toText h⟩,
    fun spec h => ⟨_, _, h.shardsByOctets?, rfl, h.shards_spec⟩⟩
  simp only [parse_eq_ok_iff, hnames, ← isDigest_iff]
  constructor
  · rintro ⟨spec, name, digest, hraw, hfirst, hname, hdigest, -⟩
    exact ⟨name, digest, hraw, hfirst, ⟨_, hname⟩, hdigest⟩
  · rintro ⟨name, digest, hraw, hfirst, ⟨algo, hname⟩, hdigest⟩
    exact ⟨⟨algo, Text.lower digest⟩, name, digest, hraw, hfirst, hname, hdigest, rfl⟩

/-- A spec in upper case is read and spelled in lower case; a second `=` is no
digit. The shards of a spec that was read are told. -/
theorem read_exactly_in_upper_case : ∃ spec : HashSpec,
    parse "SHA256=0123456789ABCDEF0" = .ok spec ∧ spec.toText = "sha256=0123456789abcdef0"
      ∧ parse "sha256=0123456789abcdef0" = .ok spec ∧ spec.Genuine
      ∧ spec.shardsByOctets? = some ("012", "3456789abcdef")
      ∧ ¬ ∃ spec, parse "SHA256==0123456789ABCDEF0" = .ok spec := by
  have hspec : parse "SHA256=0123456789ABCDEF0" = .ok ⟨.sha256, "0123456789abcdef0"⟩ := rfl
  have hgenuine : HashSpec.Genuine ⟨.sha256, "0123456789abcdef0"⟩ := .inl ⟨_, hspec⟩
  obtain ⟨htext, hagain⟩ := read_exactly.2.1 _ _ hspec
  obtain ⟨first, second, hcut, hshards, -⟩ := read_exactly.2.2 _ hgenuine
  refine ⟨_, hspec, htext, hagain, hgenuine, hcut.trans ?_, fun hread => ?_⟩
  · rw [← hshards]
    rfl
  · obtain ⟨name, digest, hraw, hfirst, -, -, hdigits⟩ := (read_exactly.1 _).1 hread
    cases Text.cutString?_equals.2 ⟨hraw, hfirst⟩
    exact absurd (hdigits '=' (by decide)) (by decide)

end HashSpec

end Depot
