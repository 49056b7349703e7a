/-
Links and where their content is kept. A link that was read has a plain
name and, if it declares a digest, one that is read again (`parse_hash`).
Two of them share a relpath just if they have one name and declare digests
that start with the same sixteen digits, or declare none and lead through
directories whose names, joined and with other characters written as `_`,
are one (`relpath_eq_iff`).
-/
import Depot.Link
import Depot.Proofs.Relpath

namespace Depot.Link

open Text

variable {raw : String} {link : Link}

-- ===================================================== what is read

/-- A link that was read is a URL with a plain name. -/
theorem of_parse (h : parse raw = .ok link) :
    Url.parse raw = .ok link.url ∧ Relpath.isPlainName link.basename = true := by
  unfold parse at h
  split at h
  · cases h
  · next url hurl =>
    split at h
    · cases h
    · dsimp only at h
      split at h
      · cases h
      · split at h
        · next hname =>
          cases h
          exact ⟨hurl, hname⟩
        · cases h

/-- Taking in a part of a fragment. -/
theorem read_hash {raw part : String} {marks read : Marks}
    (h : marks.read raw part = .ok read) :
    read.hash = marks.hash ∨ ∃ spec, read.hash = some spec ∧ HashSpec.parse part = .ok spec := by
  unfold Marks.read at h
  split at h
  · cases h
    exact .inl rfl
  · split at h
    · split at h
      · cases h
      · cases h
        exact .inl rfl
    · split at h
      · split at h
        · next spec hparse =>
          cases h
          exact .inr ⟨spec, rfl, hparse⟩
        · cases h
      · cases h
        exact .inl rfl

/-- The digest that parts of a fragment declare was read from one of them. -/
theorem foldlM_hash {raw : String} {parts : List String} {marks read : Marks}
    (h : parts.foldlM (Marks.read raw) marks = .ok read)
    (hmarks : ∀ spec, marks.hash = some spec → HashSpec.parse spec.toText = .ok spec) :
    ∀ spec, read.hash = some spec → HashSpec.parse spec.toText = .ok spec := by
  induction parts generalizing marks with
  | nil =>
      cases h
      exact hmarks
  | cons part rest ih =>
      rw [List.foldlM_cons] at h
      cases hread : marks.read raw part with
      | error err => rw [hread] at h; cases h
      | ok next =>
          rw [hread] at h
          apply ih h
          intro spec hspec
          rcases read_hash hread with hsame | ⟨spec', hspec', hparse⟩
          · exact hmarks spec (hsame ▸ hspec)
          · rw [hspec'] at hspec
            cases hspec
            exact HashSpec.parse_toText hparse

/-- The digest that a link declares is read again from its text. -/
theorem parse_hash {raw : String} {link : Link} (h : parse raw = .ok link) {spec : HashSpec}
    (hspec : link.hash = some spec) : HashSpec.parse spec.toText = .ok spec := by
  unfold parse at h
  split at h
  · cases h
  · split at h
    · cases h
    · next marks hmarks =>
      dsimp only at h
      split at h
      · cases h
      · split at h
        · cases h
          unfold Marks.ofFragment at hmarks
          split at hmarks
          · cases hmarks
            cases hspec
          · exact foldlM_hash hmarks (fun _ h => nomatch h) spec hspec
        · cases h

theorem isDigest_hash (h : parse raw = .ok link) {spec : HashSpec} (hspec : link.hash = some spec) :
    HashSpec.isDigest spec.value = true :=
  (HashSpec.of_parse (parse_hash h hspec)).1

-- ===================================================== shared relpaths

theorem relpath_of_hash {spec : HashSpec} (h : link.hash = some spec) :
    link.relpath = Relpath.ofHash spec link.basename := by
  unfold relpath
  rw [h]

theorem relpath_of_no_hash (h : link.hash = none) :
    link.relpath = Relpath.ofDirs link.dirs link.basename := by
  unfold relpath
  rw [h]

/-- The three pieces of the relpath of a link. -/
theorem relpath_pieces (h : parse raw = .ok link) :
    ∃ a b, Relpath.IsPiece a ∧ Relpath.IsPiece b ∧ Relpath.IsPiece link.basename
      ∧ link.relpath = a ++ "/" ++ b ++ "/" ++ link.basename
      ∧ (∀ spec, link.hash = some spec → (a, b) = spec.shards ∧ a ≠ Relpath.eggDir)
      ∧ (link.hash = none →
          a = Relpath.eggDir ∧ b = Relpath.sanitize (joinWith '_' link.dirs)) := by
  have hbase := (Relpath.isPlainName_iff.1 (of_parse h).2).2.2.2
  cases hhash : link.hash with
  | some spec =>
      have hdigest := isDigest_hash h hhash
      obtain ⟨hfirst, hsecond⟩ := Relpath.isPiece_shards hdigest
      refine ⟨_, _, hfirst, hsecond, hbase, relpath_of_hash hhash, ?_, nofun⟩
      intro spec' heq
      cases heq
      refine ⟨rfl, fun heq => ?_⟩
      have hlen := (Relpath.shards_length hdigest).1
      rw [heq] at hlen
      cases hlen
  | none =>
      exact ⟨_, _, Relpath.isPiece_eggDir, Relpath.isPiece_sanitize _, hbase,
        relpath_of_no_hash hhash, nofun, fun _ => ⟨rfl, rfl⟩⟩

/-- Two links share a relpath just if they have one name and declare
digests of which the first sixteen digits are the same, or declare none
and have directories that are written the same. -/
theorem relpath_eq_iff {rawA rawB : String} {a b : Link} (ha : parse rawA = .ok a)
    (hb : parse rawB = .ok b) :
    a.relpath = b.relpath ↔
      a.basename = b.basename
        ∧ ((∃ specA specB, a.hash = some specA ∧ b.hash = some specB
            ∧ specA.value.toList.take shardWidth = specB.value.toList.take shardWidth)
          ∨ (a.hash = none ∧ b.hash = none
            ∧ Relpath.sanitize (joinWith '_' a.dirs)
              = Relpath.sanitize (joinWith '_' b.dirs))) := by
  obtain ⟨x, y, hx, hy, hbaseA, hpathA, hhashA, hnoneA⟩ := relpath_pieces ha
  obtain ⟨x', y', hx', hy', hbaseB, hpathB, hhashB, hnoneB⟩ := relpath_pieces hb
  rw [hpathA, hpathB, Relpath.three_inj hx hy hbaseA hx' hy' hbaseB]
  cases hspecA : a.hash with
  | some specA =>
      obtain ⟨hshardsA, hneA⟩ := hhashA specA hspecA
      cases hspecB : b.hash with
      | some specB =>
          obtain ⟨hshardsB, -⟩ := hhashB specB hspecB
          have hpair : x = x' ∧ y = y' ↔ specA.shards = specB.shards := by
            rw [← hshardsA, ← hshardsB, Prod.mk.injEq]
          simp only [← and_assoc, hpair, Relpath.shards_eq_iff]
          simp [and_comm]
      | none =>
          obtain ⟨rfl, -⟩ := hnoneB hspecB
          simp [hneA]
  | none =>
      obtain ⟨rfl, rfl⟩ := hnoneA hspecA
      cases hspecB : b.hash with
      | some specB =>
          obtain ⟨-, hneB⟩ := hhashB specB hspecB
          simp [Ne.symm hneB]
      | none =>
          obtain ⟨rfl, rfl⟩ := hnoneB hspecB
          simp [and_comm]

end Depot.Link
