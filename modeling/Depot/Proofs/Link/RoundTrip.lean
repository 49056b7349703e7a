/-
Links as text. What a link declares is read from the fragment of its URL, and
not from the text that the URL was read from; so a link is read again from its
text, if its URL is (`reads_own_text`). The text of a spec is kept in a
fragment as it is (`withFragment_toText`), where it is one part (`partsOf_toText`)
and is read as the spec.
-/
import Depot.Proofs.Link.Marks
import Depot.Proofs.Url.Escape

namespace Depot

namespace Url

/-- The URL is read again from its text. -/
def Rereads (url : Url) : Prop := parse url.toText = .ok url

/-- No fragment escapes a hexadecimal digit. -/
theorem inFragmentSet_of_isHexDigit {c : Char} (h : Text.isHexDigit c = true) :
    inFragmentSet c = false := by
  have hrange := Text.isHexDigit_iff.1 h
  unfold inFragmentSet inControlSet
  simp only [Bool.or_eq_false_iff, decide_eq_false_iff_not, List.contains_eq_mem, List.mem_cons,
    List.not_mem_nil, or_false]
  refine ⟨⟨by omega, by omega⟩, ?_⟩
  rintro (rfl | rfl | rfl | rfl | rfl) <;> exact absurd h (by decide)

end Url

namespace HashSpec

variable {spec : HashSpec}

/-- A spec is written without escapes and in one part. -/
theorem Genuine.mem_toText (h : spec.Genuine) {c : Char} (hc : c ∈ spec.toText.toList) :
    Url.inFragmentSet c = false ∧ c ≠ '&' := by
  have hname : ((spec.algo.name ++ "=").toList.all fun c => !Url.inFragmentSet c && c != '&')
      = true := by
    cases spec.algo <;> rfl
  have htext : spec.toText.toList = (spec.algo.name ++ "=").toList ++ spec.value.toList :=
    String.toList_append
  rw [htext, List.mem_append] at hc
  rcases hc with hc | hc
  · simpa using List.all_eq_true.1 hname c hc
  · have hdigit := (isDigest_iff.1 h.isDigest).2 c hc
    refine ⟨Url.inFragmentSet_of_isHexDigit hdigit, ?_⟩
    rintro rfl
    exact absurd hdigit (by decide)

end HashSpec

namespace Link

variable {raw : String} {link : Link} {spec : HashSpec}

/-- As a fragment a spec is written as it is. -/
theorem withFragment_toText (url : Url) (h : spec.Genuine) :
    url.withFragment spec.toText = { url with fragment := some spec.toText } := by
  unfold Url.withFragment
  rw [Url.encode_eq_self fun c hc => (h.mem_toText hc).1, String.ofList_toList]

/-- There it is one part. -/
theorem partsOf_toText (h : spec.Genuine) : partsOf (some spec.toText) = [spec.toText] :=
  Text.split_of_not_mem fun hmem => (h.mem_toText hmem).2 rfl

/-- The part is read as the spec. -/
theorem read_toText (h : spec.Genuine) (raw : String) (marks : Marks) :
    marks.read raw spec.toText = .ok { marks with hash := some spec } := by
  have hpairs : Pairs spec.toText spec.algo.name spec.value :=
    pairs_iff.2 (spec.algo.cutString?_name spec.value)
  have hkey : Digest.isName spec.algo.name = true := by
    cases spec.algo <;> decide
  rw [read_digest hpairs hkey, h.parse_toText]
  rfl

/-- What the parts declare does not depend on the text of the link. -/
theorem foldlM_of_other {raw raw' : String} {parts : List String} {marks read : Marks}
    (h : parts.foldlM (Marks.read raw) marks = .ok read) :
    parts.foldlM (Marks.read raw') marks = .ok read := by
  have hkind := foldlM_kind raw raw' parts marks
  rw [h] at hkind
  cases hread : parts.foldlM (Marks.read raw') marks with
  | error e => rw [hread] at hkind; cases hkind
  | ok read' =>
      rw [hread] at hkind
      exact congrArg Except.ok (Except.ok.inj hkind).symm

/-- A link is read again from its text, if its URL is. Without its fragment it
leads through the same directories to the same name and declares nothing. With
the digest of a spec it declares the spec and nothing else, whatever its
fragment was: its content is kept under the spec's shards, and again it is read
from its text. -/
theorem reads_own_text (h : parse raw = .ok link) :
    (link.url.Rereads → parse link.toText = .ok link)
    ∧ (Url.Rereads { link.url with fragment := none } → ∃ bare,
        parse link.withoutFragment = .ok bare
          ∧ bare.basename = link.basename ∧ bare.dirs = link.dirs
          ∧ bare.hash = none ∧ bare.egg = none)
    ∧ ∀ spec : HashSpec, spec.Genuine →
        ((link.withHash spec).url.Rereads →
          parse (link.withHash spec).toText = .ok (link.withHash spec))
        ∧ (link.withHash spec).withoutFragment = link.withoutFragment
        ∧ (link.withHash spec).hash = some spec ∧ (link.withHash spec).egg = none
        ∧ (link.withHash spec).relpath = Relpath.ofHash spec link.basename := by
  obtain ⟨-, hname, hmarks⟩ := parse_eq_ok_iff.1 h
  refine ⟨fun hrereads => ?_, fun hrereads => ?_, fun spec hspec => ⟨fun hrereads => ?_, ?_⟩⟩
  · exact parse_eq_ok_iff.2 ⟨hrereads, hname, foldlM_of_other hmarks⟩
  · have htext : Url.toText { link.url with fragment := none } = link.withoutFragment :=
      String.append_empty
    unfold Url.Rereads at hrereads
    rw [htext] at hrereads
    exact ⟨⟨{ link.url with fragment := none }, none, none⟩,
      parse_eq_ok_iff.2 ⟨hrereads, hname, rfl⟩, rfl, rfl, rfl, rfl⟩
  · refine parse_eq_ok_iff.2 ⟨hrereads, hname, ?_⟩
    have hfragment : (link.withHash spec).url.fragment = some spec.toText := by
      unfold withHash
      rw [withFragment_toText _ hspec]
    rw [hfragment, partsOf_toText hspec, List.foldlM_cons, read_toText hspec]
    rfl
  · exact ⟨rfl, rfl, rfl, relpath_of_hash rfl⟩

set_option maxRecDepth 20000 in
/-- So is one that declares an egg name and, with capitals, a digest. -/
theorem reads_own_text_of_egg : ∃ link spec bare,
    parse "http://example.com/p/a%20b.zip#egg=a&x&MD5=AAAAAAAAAAAAAAAA" = .ok link
      ∧ HashSpec.Genuine spec ∧ parse link.toText = .ok link
      ∧ parse link.withoutFragment = .ok bare ∧ bare.basename = "a b.zip" ∧ bare.egg = none
      ∧ parse (link.withHash spec).toText = .ok (link.withHash spec)
      ∧ (link.withHash spec).relpath = "012/3456789abcdef/a b.zip" := by
  have hspec : HashSpec.Genuine ⟨.sha256, "0123456789abcdef"⟩ :=
    .inl ⟨"SHA256=0123456789ABCDEF", rfl⟩
  have hlink : parse "http://example.com/p/a%20b.zip#egg=a&x&MD5=AAAAAAAAAAAAAAAA"
      = .ok ⟨⟨"http", some { host := some "example.com" }, .segments ["p", "a%20b.zip"], none,
          some "egg=a&x&MD5=AAAAAAAAAAAAAAAA"⟩,
        some ⟨.md5, "aaaaaaaaaaaaaaaa"⟩, some "a"⟩ := rfl
  obtain ⟨hsame, hbare, hhashed⟩ := reads_own_text hlink
  obtain ⟨bare, hread, hname, -, -, hegg⟩ := hbare rfl
  obtain ⟨hagain, -, -, -, hrelpath⟩ := hhashed _ hspec
  exact ⟨_, _, bare, hlink, hspec, hsame rfl, hread, hname, hegg, hagain rfl, hrelpath⟩

end Link

end Depot
