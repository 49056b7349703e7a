/-
Which relpaths name files (`isValid_iff`). The relpaths that links get are
three pieces. They tell their pieces (`three_inj`), and they are valid
unless the middle one leads upwards (`isValid_three`), which two shards
never do and a directory does only if it is named after two points
(`isValid_ofHash`, `isValid_ofDirs`).
-/
import Depot.Relpath
import Depot.Proofs.HashSpec
import Depot.Proofs.Path

namespace Depot

open Text

namespace Relpath

variable {relpath a b c : String}

-- ===================================================== valid relpaths

/-- No character of a relpath is one that no name has. -/
theorem all_chars_iff : (relpath.toList.all fun c => c ≠ '\\' && c ≠ '\x00') = true
    ↔ '\\' ∉ relpath.toList ∧ '\x00' ∉ relpath.toList := by
  rw [List.all_eq_true]
  constructor
  · intro h
    exact ⟨fun hmem => by simpa using h _ hmem, fun hmem => by simpa using h _ hmem⟩
  · intro h c hc
    have hback : c ≠ '\\' := fun heq => h.1 (heq ▸ hc)
    have hnul : c ≠ '\x00' := fun heq => h.2 (heq ▸ hc)
    simp [hback, hnul]

/-- A relpath names a file if it is a relative path of names, without
backslashes and NULs, that does not start with a point. -/
theorem isValid_iff : isValid relpath = true ↔
    relpath ≠ "" ∧ Path.isAbsolute relpath = false ∧ (split '/' relpath).head? ≠ some "."
      ∧ ".." ∉ split '/' relpath ∧ '\\' ∉ relpath.toList ∧ '\x00' ∉ relpath.toList := by
  unfold isValid
  rw [Bool.and_eq_true, Bool.and_eq_true, decide_eq_true_eq, all_chars_iff,
    Path.components_isName_iff]
  tauto

/-- Text that can be one piece of a relpath. -/
def IsPiece (s : String) : Prop := ∀ c ∈ s.toList, c ≠ '/' ∧ c ≠ '\\' ∧ c ≠ '\x00'

theorem IsPiece.split (h : IsPiece a) : Text.split '/' a = [a] :=
  split_of_not_mem fun hmem => (h _ hmem).1 rfl

theorem isPlainName_iff :
    isPlainName a = true ↔ a ≠ "" ∧ a ≠ "." ∧ a ≠ ".." ∧ IsPiece a := by
  unfold isPlainName IsPiece
  simp [and_assoc]

-- ===================================================== three pieces

theorem split_three (ha : IsPiece a) (hb : IsPiece b) (hc : IsPiece c) :
    split '/' (a ++ "/" ++ b ++ "/" ++ c) = [a, b, c] := by
  rw [split_slash, split_slash, ha.split, hb.split, hc.split]
  rfl

/-- Three pieces are told by their relpath. -/
theorem three_inj {a' b' c' : String} (ha : IsPiece a) (hb : IsPiece b) (hc : IsPiece c)
    (ha' : IsPiece a') (hb' : IsPiece b') (hc' : IsPiece c') :
    a ++ "/" ++ b ++ "/" ++ c = a' ++ "/" ++ b' ++ "/" ++ c' ↔ a = a' ∧ b = b' ∧ c = c' := by
  constructor
  · intro h
    have hsplit := congrArg (split '/') h
    rw [split_three ha hb hc, split_three ha' hb' hc'] at hsplit
    simpa using hsplit
  · intro h
    obtain ⟨rfl, rfl, rfl⟩ := h
    rfl

/-- Between two names, only two points are no piece of a valid relpath. -/
theorem isValid_three (ha : isPlainName a = true) (hb : IsPiece b) (hc : isPlainName c = true) :
    isValid (a ++ "/" ++ b ++ "/" ++ c) = true ↔ b ≠ ".." := by
  obtain ⟨hempty, hhere, hup, hpiece⟩ := isPlainName_iff.1 ha
  obtain ⟨-, -, hup', hpiece'⟩ := isPlainName_iff.1 hc
  have hchars : ∀ x ∈ (a ++ "/" ++ b ++ "/" ++ c).toList, x ≠ '\\' ∧ x ≠ '\x00' := by
    intro x hx
    simp only [String.toList_append, List.mem_append] at hx
    rcases hx with (((hx | hx) | hx) | hx) | hx
    · exact (hpiece x hx).2
    · rw [List.mem_singleton.1 hx]
      decide
    · exact (hb x hx).2
    · rw [List.mem_singleton.1 hx]
      decide
    · exact (hpiece' x hx).2
  have hback : '\\' ∉ (a ++ "/" ++ b ++ "/" ++ c).toList := fun h => (hchars _ h).1 rfl
  have hnul : '\x00' ∉ (a ++ "/" ++ b ++ "/" ++ c).toList := fun h => (hchars _ h).2 rfl
  have habs : Path.isAbsolute (a ++ "/" ++ b ++ "/" ++ c) = false := by
    rw [String.append_assoc, String.append_assoc, String.append_assoc,
      Path.isAbsolute_append hempty]
    unfold Path.isAbsolute
    rw [decide_eq_false_iff_not]
    intro hhead
    exact (hpiece _ (List.mem_of_mem_head? hhead)).1 rfl
  rw [isValid_iff, split_three hpiece hb hpiece']
  simp only [habs, hback, hnul, not_false_eq_true, and_true, true_and]
  simp [hempty, hhere, Ne.symm hup, Ne.symm hup', @eq_comm _ ".."]

-- ===================================================== shards

/-- Hexadecimal digits can be one piece. -/
theorem isPiece_of_hex {s : List Char} (h : s.all isHexDigit = true) :
    IsPiece (String.ofList s) := by
  intro c hc
  rw [String.toList_ofList] at hc
  have hdigit := List.all_eq_true.1 h c hc
  refine ⟨?_, ?_, ?_⟩ <;> (intro heq; rw [heq] at hdigit; revert hdigit; decide)

variable {spec spec' : HashSpec}

/-- The shards of a digest are three digits, and the thirteen behind
them. -/
theorem shards_length (h : HashSpec.isDigest spec.value = true) :
    spec.shards.1.toList.length = 3 ∧ spec.shards.2.toList.length = 13 := by
  unfold HashSpec.isDigest shardWidth at h
  rw [Bool.and_eq_true, decide_eq_true_eq] at h
  unfold HashSpec.shards shardWidth
  simp only [String.toList_ofList, List.length_take, List.length_drop]
  omega

theorem isPiece_shards (h : HashSpec.isDigest spec.value = true) :
    IsPiece spec.shards.1 ∧ IsPiece spec.shards.2 := by
  unfold HashSpec.isDigest at h
  have hhex := List.all_eq_true.1 (Bool.and_eq_true_iff.1 h).2
  have hpart : ∀ digits : List Char, (∀ c ∈ digits, c ∈ spec.value.toList) →
      IsPiece (String.ofList digits) :=
    fun digits hmem => isPiece_of_hex (List.all_eq_true.2 fun c hc => hhex c (hmem c hc))
  exact ⟨hpart _ fun _ hc => List.mem_of_mem_take hc,
    hpart _ fun _ hc => List.mem_of_mem_take (List.mem_of_mem_drop hc)⟩

theorem isPlainName_shards (h : HashSpec.isDigest spec.value = true) :
    isPlainName spec.shards.1 = true := by
  have hlen := (shards_length h).1
  refine isPlainName_iff.2 ⟨?_, ?_, ?_, (isPiece_shards h).1⟩ <;>
    (intro heq; rw [heq] at hlen; revert hlen; decide)

/-- The first digits of two digests are the same just if their shards
are. -/
theorem shards_eq_iff : spec.shards = spec'.shards
    ↔ spec.value.toList.take shardWidth = spec'.value.toList.take shardWidth := by
  have htake : ∀ digits : List Char, digits.take 3 = (digits.take shardWidth).take 3 := by
    intro digits
    rw [List.take_take]
    rfl
  unfold HashSpec.shards
  simp only [Prod.mk.injEq, String.ofList_inj, htake spec.value.toList, htake spec'.value.toList]
  constructor
  · intro h
    rw [← List.take_append_drop 3 (spec.value.toList.take shardWidth), h.1, h.2,
      List.take_append_drop]
  · intro h
    rw [h]
    exact ⟨rfl, rfl⟩

/-- Content with a digest gets a relpath that names a file. -/
theorem isValid_ofHash (h : HashSpec.isDigest spec.value = true) (hbase : isPlainName a = true) :
    isValid (ofHash spec a) = true := by
  refine (isValid_three (isPlainName_shards h) (isPiece_shards h).2 hbase).2 fun hup => ?_
  have hlen := (shards_length h).2
  rw [hup] at hlen
  revert hlen
  decide

-- ===================================================== directories of links

theorem isPiece_eggDir : IsPiece eggDir := by
  intro c hc
  rcases (show c = '+' ∨ c = 'e' by simpa [eggDir] using hc) with rfl | rfl
  · decide
  · decide

theorem isPiece_sanitize (s : String) : IsPiece (sanitize s) := by
  unfold sanitize
  intro c hc
  rw [String.toList_ofList] at hc
  obtain ⟨x, -, rfl⟩ := List.mem_map.1 hc
  split
  · next hx => refine ⟨?_, ?_, ?_⟩ <;> (intro heq; rw [heq] at hx; revert hx; decide)
  · decide

/-- Text is written as two points only if it is two points. -/
theorem sanitize_eq_up : sanitize a = ".." ↔ a = ".." := by
  unfold sanitize
  rw [← String.toList_inj, ← String.toList_inj, String.toList_ofList]
  have hdot : ∀ x : Char,
      (if x.isAlphanum || x = '_' || x = '.' || x = '-' then x else '_') = '.' → x = '.' := by
    intro x hx
    split at hx
    · exact hx
    · exact absurd hx (by decide)
  constructor
  · intro h
    obtain ⟨x, rest, ha, hx, hrest⟩ := List.map_eq_cons_iff.1 h
    obtain ⟨y, last, rfl, hy, hlast⟩ := List.map_eq_cons_iff.1 hrest
    rw [ha, hdot x hx, hdot y hy, List.map_eq_nil_iff.1 hlast]
    rfl
  · intro h
    rw [h]
    rfl

/-- Content without a digest gets one, unless it is from a directory that is
named by two points. -/
theorem isValid_ofDirs (dirs : List String) (hbase : isPlainName a = true) :
    isValid (ofDirs dirs a) = true ↔ dirs ≠ [".."] := by
  have hup : joinWith '_' dirs = ".." ↔ dirs = [".."] :=
    joinWith_eq_iff (by decide) (by decide)
  unfold ofDirs
  rw [isValid_three (by decide) (isPiece_sanitize _) hbase, Ne, sanitize_eq_up, hup]

end Relpath

end Depot
