/-
Links that share a relpath and what they name. Links that name one artifact
share it, since the text of a URL tells the parts that relpaths are made of
(`SameArtifact.relpath_eq`). But relpaths leave out all of a digest that
follows its first sixteen digits, and all of a URL but its name and what is
left of its host and directories once they are written as one name. So links
that share a relpath may be confused, if they do not name one artifact
(`same_or_confused`), and never are both (`Confused.not_same`).
-/
import Depot.Proofs.Link
import Depot.Proofs.Url.Telling

namespace Depot.Link

open Text

variable {rawA rawB : String} {a b : Link}

/-- The links name one artifact: they declare one digest for one name, or
declare none and lead to one URL, whatever its fragment is. -/
inductive SameArtifact (a b : Link) : Prop
  | declared {spec : HashSpec} (hashA : a.hash = some spec) (hashB : b.hash = some spec)
      (name : a.basename = b.basename)
  | located (hashA : a.hash = none) (hashB : b.hash = none)
      (url : a.withoutFragment = b.withoutFragment)

/-- The links name two artifacts, in what relpaths leave out: the family of
the digest or its later digits; or anything of the URL that does not change
its name nor the name of its directories. -/
inductive Confused (a b : Link) : Prop
  | digests {specA specB : HashSpec} (hashA : a.hash = some specA) (hashB : b.hash = some specB)
      (name : a.basename = b.basename)
      (shards : specA.value.toList.take shardWidth = specB.value.toList.take shardWidth)
      (other : specA.algo ≠ specB.algo
        ∨ specA.value.toList.drop shardWidth ≠ specB.value.toList.drop shardWidth)
  | urls (hashA : a.hash = none) (hashB : b.hash = none) (name : a.basename = b.basename)
      (dirs : Relpath.sanitize (joinWith '_' a.dirs) = Relpath.sanitize (joinWith '_' b.dirs))
      (other : a.url.scheme ≠ b.url.scheme ∨ a.url.authority ≠ b.url.authority
        ∨ a.url.path ≠ b.url.path ∨ a.url.query ≠ b.url.query)

/-- The URL of a link has segments. -/
theorem segments_of_parse (h : parse rawA = .ok a) :
    ∃ segments, a.url.path = .segments segments ∧ segments ≠ [] := by
  have hname := (Relpath.isPlainName_iff.1 (of_parse h).2).1
  cases hpath : a.url.path with
  | segments list =>
      refine ⟨list, rfl, ?_⟩
      rintro rfl
      refine hname ?_
      unfold basename basenameOf
      rw [hpath]
      rfl
  | rootless text =>
      refine absurd ?_ hname
      unfold basename basenameOf
      rw [hpath]
      rfl

/-- The URLs of two links are one, but for their fragments, just if all of
their other parts are the same. -/
theorem withoutFragment_eq_iff (ha : parse rawA = .ok a) (hb : parse rawB = .ok b) :
    a.withoutFragment = b.withoutFragment ↔ a.url.scheme = b.url.scheme
      ∧ a.url.authority = b.url.authority ∧ a.url.path = b.url.path
      ∧ a.url.query = b.url.query := by
  obtain ⟨segmentsA, hpathA, hneA⟩ := segments_of_parse ha
  obtain ⟨segmentsB, hpathB, hneB⟩ := segments_of_parse hb
  constructor
  · exact (Url.parse_clear (of_parse ha).1).inj (Url.parse_clear (of_parse hb).1) hpathA hpathB
      hneA hneB
  · intro h
    obtain ⟨hscheme, hauthority, hpath, hquery⟩ := h
    unfold withoutFragment Url.withoutFragment Url.front
    rw [hscheme, hauthority, hpath, hquery]

/-- Specs of which the first sixteen digits are the same are one just if the
families and the later digits are. -/
theorem spec_eq_iff {x y : HashSpec}
    (hshards : x.value.toList.take shardWidth = y.value.toList.take shardWidth) :
    x = y ↔ x.algo = y.algo
      ∧ x.value.toList.drop shardWidth = y.value.toList.drop shardWidth := by
  constructor
  · rintro rfl
    exact ⟨rfl, rfl⟩
  · intro h
    obtain ⟨halgo, hlater⟩ := h
    obtain ⟨algo, value⟩ := x
    obtain ⟨algo', value'⟩ := y
    have hvalue : value.toList = value'.toList := by
      rw [← List.take_append_drop shardWidth value.toList,
        ← List.take_append_drop shardWidth value'.toList, hlater]
      exact congrArg (· ++ _) hshards
    obtain rfl := String.toList_inj.1 hvalue
    cases halgo
    rfl

/-- Links that name one artifact share a relpath. -/
theorem SameArtifact.relpath_eq (ha : parse rawA = .ok a) (hb : parse rawB = .ok b)
    (h : a.SameArtifact b) : a.relpath = b.relpath := by
  cases h with
  | declared hashA hashB name => rw [relpath_of_hash hashA, relpath_of_hash hashB, name]
  | located hashA hashB url =>
      obtain ⟨-, hauthority, hpath, -⟩ := (withoutFragment_eq_iff ha hb).1 url
      rw [relpath_of_no_hash hashA, relpath_of_no_hash hashB]
      unfold dirs basename basenameOf
      rw [hauthority, hpath]

theorem Confused.relpath_eq (ha : parse rawA = .ok a) (hb : parse rawB = .ok b)
    (h : a.Confused b) : a.relpath = b.relpath := by
  refine (relpath_eq_iff ha hb).2 ?_
  cases h with
  | digests hashA hashB name shards _ => exact ⟨name, .inl ⟨_, _, hashA, hashB, shards⟩⟩
  | urls hashA hashB name dirs _ => exact ⟨name, .inr ⟨hashA, hashB, dirs⟩⟩

theorem Confused.not_same (ha : parse rawA = .ok a) (hb : parse rawB = .ok b)
    (h : a.Confused b) : ¬a.SameArtifact b := by
  intro hsame
  cases h with
  | digests hashA hashB _ shards other =>
      cases hsame with
      | declared hashA' hashB' _ =>
          obtain rfl := Option.some.inj (hashA.symm.trans hashA')
          obtain rfl := Option.some.inj (hashB.symm.trans hashB')
          rcases other with h | h <;> exact h rfl
      | located hashA' _ _ => cases hashA.symm.trans hashA'
  | urls hashA _ _ _ other =>
      cases hsame with
      | declared hashA' _ _ => cases hashA.symm.trans hashA'
      | located _ _ url =>
          obtain ⟨hscheme, hauthority, hpath, hquery⟩ := (withoutFragment_eq_iff ha hb).1 url
          rcases other with h | h | h | h
          · exact h hscheme
          · exact h hauthority
          · exact h hpath
          · exact h hquery

/-- Links that share a relpath name one artifact, or are confused. -/
theorem same_or_confused (ha : parse rawA = .ok a) (hb : parse rawB = .ok b)
    (h : a.relpath = b.relpath) : a.SameArtifact b ∨ a.Confused b := by
  obtain ⟨hname, ⟨specA, specB, hashA, hashB, hshards⟩ | ⟨hashA, hashB, hdirs⟩⟩ :=
    (relpath_eq_iff ha hb).1 h
  · by_cases hspec : specA = specB
    · exact .inl (.declared hashA (hspec ▸ hashB) hname)
    · rw [spec_eq_iff hshards, Classical.not_and_iff_not_or_not] at hspec
      exact .inr (.digests hashA hashB hname hshards hspec)
  · by_cases hurl : a.withoutFragment = b.withoutFragment
    · exact .inl (.located hashA hashB hurl)
    · refine .inr (.urls hashA hashB hname hdirs ?_)
      rw [withoutFragment_eq_iff ha hb] at hurl
      simpa only [Classical.not_and_iff_not_or_not] using hurl

/-- Links that name one artifact share a relpath. Those that share one name
one artifact just if they are not confused: if they do not declare digests
that are told apart by their families or behind their sixteenth digits, nor
lead, without a digest, to URLs that are told apart only by what the names of
file and directories leave out. -/
theorem sharing_iff_not_confused (ha : parse rawA = .ok a) (hb : parse rawB = .ok b) :
    (a.SameArtifact b → a.relpath = b.relpath)
      ∧ ((a.relpath = b.relpath → a.SameArtifact b) ↔ ¬a.Confused b) := by
  refine ⟨SameArtifact.relpath_eq ha hb, ⟨fun hsame hconfused => ?_, fun hnot heq => ?_⟩⟩
  · exact hconfused.not_same ha hb (hsame (hconfused.relpath_eq ha hb))
  · exact (same_or_confused ha hb heq).resolve_right hnot

set_option maxRecDepth 20000 in
/-- Links that declare digests of which sixteen digits are the same are
confused, and so are those of two schemes; links that lead from two mirrors
to one digest are not. -/
theorem sharing_iff_not_confused_mirrored :
    (∃ a b, parse "http://example.com/a.zip#md5=0f5f13cf0b14c88bd431ef163b63d68d" = .ok a
      ∧ parse "http://example.com/a.zip#md5=0f5f13cf0b14c88b0000000000000000" = .ok b
      ∧ a.relpath = "0f5/f13cf0b14c88b/a.zip" ∧ b.relpath = "0f5/f13cf0b14c88b/a.zip"
      ∧ ¬a.SameArtifact b)
    ∧ (∃ a b, parse "http://example.com/a.zip" = .ok a ∧ parse "https://example.com/a.zip" = .ok b
      ∧ a.relpath = "+e/example.com/a.zip" ∧ b.relpath = "+e/example.com/a.zip"
      ∧ ¬a.SameArtifact b)
    ∧ ∃ a b, parse "https://one.example/pkg/a.zip#md5=0f5f13cf0b14c88bd431ef163b63d68d" = .ok a
      ∧ parse "http://two.example/a.zip#md5=0f5f13cf0b14c88bd431ef163b63d68d" = .ok b
      ∧ a.relpath = b.relpath ∧ ¬a.Confused b := by
  refine ⟨?_, ?_, ?_⟩
  · have ha : parse "http://example.com/a.zip#md5=0f5f13cf0b14c88bd431ef163b63d68d"
        = .ok ⟨⟨"http", some { host := some "example.com" }, .segments ["a.zip"], none,
            some "md5=0f5f13cf0b14c88bd431ef163b63d68d"⟩,
          some ⟨.md5, "0f5f13cf0b14c88bd431ef163b63d68d"⟩, none⟩ := rfl
    have hb : parse "http://example.com/a.zip#md5=0f5f13cf0b14c88b0000000000000000"
        = .ok ⟨⟨"http", some { host := some "example.com" }, .segments ["a.zip"], none,
            some "md5=0f5f13cf0b14c88b0000000000000000"⟩,
          some ⟨.md5, "0f5f13cf0b14c88b0000000000000000"⟩, none⟩ := rfl
    refine ⟨_, _, ha, hb, rfl, rfl, fun hsame => ?_⟩
    refine (sharing_iff_not_confused ha hb).2.1 (fun _ => hsame) ?_
    exact .digests rfl rfl rfl (by decide) (.inr (by decide))
  · have ha : parse "http://example.com/a.zip"
        = .ok ⟨⟨"http", some { host := some "example.com" }, .segments ["a.zip"], none, none⟩,
          none, none⟩ := rfl
    have hb : parse "https://example.com/a.zip"
        = .ok ⟨⟨"https", some { host := some "example.com" }, .segments ["a.zip"], none, none⟩,
          none, none⟩ := rfl
    refine ⟨_, _, ha, hb, rfl, rfl, fun hsame => ?_⟩
    refine (sharing_iff_not_confused ha hb).2.1 (fun _ => hsame) ?_
    exact .urls rfl rfl rfl rfl (.inl (by decide))
  · have ha : parse "https://one.example/pkg/a.zip#md5=0f5f13cf0b14c88bd431ef163b63d68d"
        = .ok ⟨⟨"https", some { host := some "one.example" }, .segments ["pkg", "a.zip"], none,
            some "md5=0f5f13cf0b14c88bd431ef163b63d68d"⟩,
          some ⟨.md5, "0f5f13cf0b14c88bd431ef163b63d68d"⟩, none⟩ := rfl
    have hb : parse "http://two.example/a.zip#md5=0f5f13cf0b14c88bd431ef163b63d68d"
        = .ok ⟨⟨"http", some { host := some "two.example" }, .segments ["a.zip"], none,
            some "md5=0f5f13cf0b14c88bd431ef163b63d68d"⟩,
          some ⟨.md5, "0f5f13cf0b14c88bd431ef163b63d68d"⟩, none⟩ := rfl
    obtain ⟨hshare, hiff⟩ := sharing_iff_not_confused ha hb
    exact ⟨_, _, ha, hb, hshare (.declared rfl rfl rfl), hiff.1 fun _ => .declared rfl rfl rfl⟩

end Depot.Link
