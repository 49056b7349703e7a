/-
What the fragment of a link declares. A part that declares something is an egg
name or a digest (`isMark`); the others are passed over wherever they stand
(`foldlM_filter`). A link is refused just if one of its parts is an egg name
without a name or names a digest that it does not spell (`foldlM_isOk_iff`),
and else its digest is that of the last part that declares one
(`hash_of_foldlM_append`). What is refused is refused alike, whatever the URL
is (`foldlM_kind`).
-/
import Depot.Proofs.HashSpec.Spelling
import Depot.Proofs.Link

namespace Depot

-- ===================================================== kinds of refusals

/-- What is wrong with a link, without the text that it is about. -/
inductive LinkError.Kind where
  | invalidUrl
  | unknownAlgo
  | invalidHashSpec
  | missingBasename
  | unsafeBasename
  | emptyEgg
deriving DecidableEq

/-- The kind of a refusal. -/
def LinkError.kind : LinkError → Kind
  | invalidUrl _ _ => .invalidUrl
  | unknownAlgo _ => .unknownAlgo
  | invalidHashSpec _ => .invalidHashSpec
  | missingBasename _ => .missingBasename
  | unsafeBasename _ => .unsafeBasename
  | emptyEgg _ => .emptyEgg

namespace Link

variable {raw raw' part key value : String} {marks read : Marks} {parts : List String}

-- ===================================================== one part

/-- The parts of a fragment; without a fragment there are none. -/
def partsOf (fragment : Option String) : List String :=
  match fragment with
  | none => []
  | some text => Text.split '&' text

/-- A part is a key and a value with the first `=` between. -/
def Pairs (part key value : String) : Prop :=
  part = key ++ "=" ++ value ∧ '=' ∉ key.toList

/-- Whether a part declares something: its key is `egg`, or names a digest in
any case. -/
def isMark (part : String) : Bool :=
  match Text.cutString? '=' part with
  | none => false
  | some (key, _) => key = "egg" || Digest.isName key

theorem pairs_iff : Pairs part key value ↔ Text.cutString? '=' part = some (key, value) :=
  Text.cutString?_equals.symm

theorem isMark_iff : isMark part = true ↔
    ∃ key value, Pairs part key value ∧ (key = "egg" ∨ Digest.isName key = true) := by
  unfold isMark
  cases hcut : Text.cutString? '=' part with
  | none =>
      refine iff_of_false nofun ?_
      rintro ⟨key, value, hpairs, -⟩
      rw [pairs_iff, hcut] at hpairs
      cases hpairs
  | some pair =>
      obtain ⟨key, value⟩ := pair
      rw [Bool.or_eq_true, decide_eq_true_eq]
      constructor
      · intro h
        exact ⟨key, value, pairs_iff.2 hcut, h⟩
      · rintro ⟨key', value', hpairs, h⟩
        rw [pairs_iff, hcut] at hpairs
        cases hpairs
        exact h

/-- No egg name is taken for a digest. -/
theorem ne_egg_of_isName (h : Digest.isName key = true) : key ≠ "egg" := by
  rintro rfl
  revert h
  decide

/-- A part that declares nothing is passed over. -/
theorem read_idle (h : isMark part = false) : marks.read raw part = .ok marks := by
  unfold isMark at h
  unfold Marks.read
  cases hcut : Text.cutString? '=' part with
  | none => rfl
  | some pair =>
      rw [hcut] at h
      obtain ⟨hegg, hdigest⟩ := Bool.or_eq_false_iff.1 h
      dsimp only
      rw [if_neg (of_decide_eq_false hegg), if_neg (by simp [hdigest])]

/-- An egg name is kept, unless it is empty. -/
theorem read_egg (h : Pairs part "egg" value) : marks.read raw part
    = if value = "" then .error (.emptyEgg raw) else .ok { marks with egg := some value } := by
  unfold Marks.read
  rw [pairs_iff.1 h]
  rfl

/-- What names a digest must be a spec. -/
theorem read_digest (h : Pairs part key value) (hkey : Digest.isName key = true) :
    marks.read raw part
      = (HashSpec.parse part).map fun spec => { marks with hash := some spec } := by
  unfold Marks.read
  rw [pairs_iff.1 h]
  dsimp only
  rw [if_neg (ne_egg_of_isName hkey), if_pos hkey]
  cases HashSpec.parse part <;> rfl

/-- A part declares nothing, or it is an egg name, or it names a digest. -/
theorem mark_cases (part : String) : isMark part = false ∨ (∃ value, Pairs part "egg" value)
    ∨ ∃ key value, Pairs part key value ∧ Digest.isName key = true := by
  cases hmark : isMark part with
  | false => exact .inl rfl
  | true =>
      obtain ⟨key, value, hpairs, rfl | hkey⟩ := isMark_iff.1 hmark
      · exact .inr (.inl ⟨value, hpairs⟩)
      · exact .inr (.inr ⟨key, value, hpairs, hkey⟩)

theorem Pairs.unique {key' value' : String} (h : Pairs part key value)
    (h' : Pairs part key' value') : key' = key ∧ value' = value := by
  rw [pairs_iff] at h h'
  rw [h] at h'
  cases h'
  exact ⟨rfl, rfl⟩

/-- A part is no egg name without a name, and if it names a digest it is a
spec. -/
def Readable (part : String) : Prop :=
  ¬ Pairs part "egg" ""
    ∧ ∀ key value, Pairs part key value → Digest.isName key = true →
        ∃ spec, HashSpec.parse part = .ok spec

theorem read_isOk_iff (raw : String) (marks : Marks) (part : String) :
    (∃ read, marks.read raw part = .ok read) ↔ Readable part := by
  rcases mark_cases part with hidle | ⟨value, hpairs⟩ | ⟨key, value, hpairs, hkey⟩
  · have hnot : ∀ key value, Pairs part key value → ¬ (key = "egg" ∨ Digest.isName key = true) := by
      intro key value hpairs hkey
      rw [isMark_iff.2 ⟨key, value, hpairs, hkey⟩] at hidle
      cases hidle
    refine iff_of_true ⟨_, read_idle hidle⟩ ⟨fun hpairs => hnot _ _ hpairs (.inl rfl), ?_⟩
    exact fun key value hpairs hkey => absurd (.inr hkey) (hnot _ _ hpairs)
  · rw [read_egg hpairs]
    constructor
    · rintro ⟨read, hread⟩
      refine ⟨fun hempty => ?_, fun key' value' hpairs' hkey' => ?_⟩
      · obtain ⟨-, rfl⟩ := hpairs.unique hempty
        cases hread
      · exact absurd (hpairs.unique hpairs').1 (ne_egg_of_isName hkey')
    · intro hreadable
      have hnamed : value ≠ "" := by
        rintro rfl
        exact hreadable.1 hpairs
      rw [if_neg hnamed]
      exact ⟨_, rfl⟩
  · rw [read_digest hpairs hkey]
    constructor
    · rintro ⟨read, hread⟩
      refine ⟨fun hempty => ne_egg_of_isName hkey (hempty.unique hpairs).1, fun _ _ _ _ => ?_⟩
      cases hspec : HashSpec.parse part with
      | error e => rw [hspec] at hread; cases hread
      | ok spec => exact ⟨spec, rfl⟩
    · intro hreadable
      obtain ⟨spec, hspec⟩ := hreadable.2 key value hpairs hkey
      rw [hspec]
      exact ⟨_, rfl⟩

/-- What is wrong with a part does not depend on the link that it is of. -/
theorem read_kind (raw raw' : String) (marks : Marks) (part : String) :
    (marks.read raw part).mapError LinkError.kind
      = (marks.read raw' part).mapError LinkError.kind := by
  rcases mark_cases part with hidle | ⟨value, hpairs⟩ | ⟨key, value, hpairs, hkey⟩
  · rw [read_idle hidle, read_idle hidle]
  · rw [read_egg hpairs, read_egg hpairs]
    split <;> rfl
  · rw [read_digest hpairs hkey, read_digest hpairs hkey]

-- ===================================================== all parts

/-- Parts are taken in one after the other. -/
theorem foldlM_cons_eq_ok_iff : (part :: parts).foldlM (Marks.read raw) marks = .ok read ↔
    ∃ next, marks.read raw part = .ok next
      ∧ parts.foldlM (Marks.read raw) next = .ok read := by
  rw [List.foldlM_cons]
  cases marks.read raw part with
  | error e =>
      refine iff_of_false nofun ?_
      rintro ⟨next, h, -⟩
      cases h
  | ok next =>
      constructor
      · intro h
        exact ⟨next, rfl, h⟩
      · rintro ⟨_, hnext, h⟩
        cases hnext
        exact h

/-- A link is refused just for one of its parts. -/
theorem foldlM_isOk_iff (raw : String) (parts : List String) (marks : Marks) :
    (∃ read, parts.foldlM (Marks.read raw) marks = .ok read) ↔
      ∀ part ∈ parts, Readable part := by
  induction parts generalizing marks with
  | nil => exact iff_of_true ⟨marks, rfl⟩ nofun
  | cons part rest ih =>
      simp only [foldlM_cons_eq_ok_iff]
      rw [List.forall_mem_cons, ← read_isOk_iff raw marks]
      constructor
      · rintro ⟨read, next, hpart, hrest⟩
        exact ⟨⟨next, hpart⟩, (ih next).1 ⟨read, hrest⟩⟩
      · rintro ⟨⟨next, hpart⟩, hrest⟩
        obtain ⟨read, hread⟩ := (ih next).2 hrest
        exact ⟨read, next, hpart, hread⟩

/-- What is wrong with the parts does not depend on the link. -/
theorem foldlM_kind (raw raw' : String) (parts : List String) (marks : Marks) :
    (parts.foldlM (Marks.read raw) marks).mapError LinkError.kind
      = (parts.foldlM (Marks.read raw') marks).mapError LinkError.kind := by
  induction parts generalizing marks with
  | nil => rfl
  | cons part rest ih =>
      have hkind := read_kind raw raw' marks part
      rw [List.foldlM_cons, List.foldlM_cons]
      cases hread : marks.read raw part with
      | error e =>
          cases hread' : marks.read raw' part with
          | error e' => rwa [hread, hread'] at hkind
          | ok next => rw [hread, hread'] at hkind; cases hkind
      | ok next =>
          cases hread' : marks.read raw' part with
          | error e => rw [hread, hread'] at hkind; cases hkind
          | ok next' =>
              rw [hread, hread'] at hkind
              cases hkind
              exact ih next

/-- Parts that declare nothing may stand anywhere. -/
theorem foldlM_filter (raw : String) (parts : List String) (marks : Marks) :
    (parts.filter isMark).foldlM (Marks.read raw) marks
      = parts.foldlM (Marks.read raw) marks := by
  induction parts generalizing marks with
  | nil => rfl
  | cons part rest ih =>
      rw [List.foldlM_cons]
      cases hmark : isMark part with
      | false =>
          rw [List.filter_cons_of_neg (by simp [hmark]), read_idle hmark]
          exact ih marks
      | true =>
          rw [List.filter_cons_of_pos hmark, List.foldlM_cons]
          exact bind_congr fun next => ih next

/-- Parts that are no specs leave the digest as it was. -/
theorem hash_of_foldlM (h : parts.foldlM (Marks.read raw) marks = .ok read)
    (hnone : ∀ part ∈ parts, ∀ spec, HashSpec.parse part ≠ .ok spec) : read.hash = marks.hash := by
  induction parts generalizing marks with
  | nil =>
      cases h
      rfl
  | cons part rest ih =>
      obtain ⟨hpart, hrest⟩ := List.forall_mem_cons.1 hnone
      obtain ⟨next, hread, h⟩ := foldlM_cons_eq_ok_iff.1 h
      rcases read_hash hread with hsame | ⟨spec, -, hparse⟩
      · exact (ih h hrest).trans hsame
      · exact absurd hparse (hpart spec)

/-- The digest is that of the last part that names one. -/
theorem hash_of_foldlM_append {before after : List String}
    (h : (before ++ part :: after).foldlM (Marks.read raw) marks = .ok read)
    (hpairs : Pairs part key value) (hkey : Digest.isName key = true)
    (hnone : ∀ other ∈ after, ∀ spec, HashSpec.parse other ≠ .ok spec) :
    ∃ spec, HashSpec.parse part = .ok spec ∧ read.hash = some spec := by
  induction before generalizing marks with
  | nil =>
      obtain ⟨next, hread, h⟩ := foldlM_cons_eq_ok_iff.1 h
      rw [read_digest hpairs hkey] at hread
      cases hspec : HashSpec.parse part with
      | error e => rw [hspec] at hread; cases hread
      | ok spec =>
          rw [hspec] at hread
          cases hread
          exact ⟨spec, rfl, hash_of_foldlM h hnone⟩
  | cons other rest ih =>
      obtain ⟨next, -, h⟩ := foldlM_cons_eq_ok_iff.1 h
      exact ih h

-- ===================================================== links

theorem ofFragment_eq (raw : String) (fragment : Option String) :
    Marks.ofFragment raw fragment = (partsOf fragment).foldlM (Marks.read raw) {} := by
  cases fragment <;> rfl

/-- The link that a URL with a plain name makes. -/
theorem parse_of_url {url : Url} (hurl : Url.parse raw = .ok url)
    (hname : Relpath.isPlainName (basenameOf url) = true) :
    parse raw = ((partsOf url.fragment).foldlM (Marks.read raw) {}).map fun marks =>
      ⟨url, marks.hash, marks.egg⟩ := by
  have hnamed := (Relpath.isPlainName_iff.1 hname).1
  unfold parse
  rw [hurl]
  dsimp only
  rw [ofFragment_eq]
  cases (partsOf url.fragment).foldlM (Marks.read raw) {} with
  | error e => rfl
  | ok marks =>
      dsimp only
      rw [if_neg hnamed, if_pos hname]
      rfl

/-- What is read is a URL with a plain name, and what its fragment declares. -/
theorem parse_eq_ok_iff {link : Link} : parse raw = .ok link ↔
    Url.parse raw = .ok link.url ∧ Relpath.isPlainName link.basename = true
      ∧ (partsOf link.url.fragment).foldlM (Marks.read raw) {} = .ok ⟨link.hash, link.egg⟩ := by
  constructor
  · intro h
    obtain ⟨hurl, hname⟩ := of_parse h
    refine ⟨hurl, hname, ?_⟩
    rw [parse_of_url hurl hname] at h
    cases hmarks : (partsOf link.url.fragment).foldlM (Marks.read raw) {} with
    | error e => rw [hmarks] at h; cases h
    | ok marks =>
        rw [hmarks] at h
        rw [← Except.ok.inj h]
  · rintro ⟨hurl, hname, hmarks⟩
    rw [parse_of_url hurl hname, hmarks]
    rfl

/-- A link with a plain name is read just if all parts of its fragment are. -/
theorem parse_isOk_iff {url : Url} (hurl : Url.parse raw = .ok url)
    (hname : Relpath.isPlainName (basenameOf url) = true) :
    (∃ link, parse raw = .ok link) ↔ ∀ part ∈ partsOf url.fragment, Readable part := by
  rw [← foldlM_isOk_iff raw _ {}, parse_of_url hurl hname]
  cases (partsOf url.fragment).foldlM (Marks.read raw) {} with
  | error e =>
      refine iff_of_false ?_ ?_ <;>
        (rintro ⟨_, h⟩
         cases h)
  | ok marks => exact iff_of_true ⟨_, rfl⟩ ⟨_, rfl⟩

/-- What a link declares, or what is wrong with it. -/
def found (raw : String) : Except LinkError.Kind Marks :=
  ((parse raw).map fun link => ⟨link.hash, link.egg⟩).mapError LinkError.kind

theorem found_of_url {url : Url} (hurl : Url.parse raw = .ok url)
    (hname : Relpath.isPlainName (basenameOf url) = true) :
    found raw = ((partsOf url.fragment).foldlM (Marks.read raw) {}).mapError LinkError.kind := by
  unfold found
  rw [parse_of_url hurl hname]
  cases (partsOf url.fragment).foldlM (Marks.read raw) {} <;> rfl

/-- The part names a digest that content can be verified with. -/
def NamesDigest (part : String) : Prop :=
  ∃ key value, Pairs part key value ∧ ∃ algo : Digest.Algo, Text.lower key = algo.name

/-- The part names a digest that content cannot be verified with. -/
def NamesUnsupported (part : String) : Prop :=
  ∃ key value, Pairs part key value ∧ Text.lower key ∈ Digest.unsupportedNames

theorem isName_iff : Digest.isName key = true ↔
    (∃ algo : Digest.Algo, Text.lower key = algo.name)
      ∨ Text.lower key ∈ Digest.unsupportedNames := by
  unfold Digest.isName
  simp only [Bool.or_eq_true, Option.isSome_iff_exists, Digest.Algo.ofName?_eq_some_iff,
    List.contains_eq_mem, decide_eq_true_eq]

/-- A spec names a digest that content can be verified with. -/
theorem namesDigest_of_parse {spec : HashSpec} (h : HashSpec.parse part = .ok spec) :
    NamesDigest part := by
  obtain ⟨key, value, hpart, hfirst, hname, -⟩ := HashSpec.parse_eq_ok_iff.1 h
  exact ⟨key, value, ⟨hpart, hfirst⟩, spec.algo, hname⟩

/-- Whoever names a digest that cannot be verified is refused. -/
theorem NamesUnsupported.not_readable (h : NamesUnsupported part) : ¬ Readable part := by
  obtain ⟨key, value, hpairs, hkey⟩ := h
  rintro ⟨-, hspecs⟩
  obtain ⟨spec, hspec⟩ := hspecs key value hpairs (isName_iff.2 (.inr hkey))
  obtain ⟨key', value', hpairs', algo, hname⟩ := namesDigest_of_parse hspec
  rw [(hpairs.unique hpairs').1] at hname
  rw [hname] at hkey
  revert hkey
  cases algo <;> decide

/-- No digest that a link declares is dropped. A link with a plain name is read
just if all parts of its fragment are readable. Where a part names a digest, a
link that is read has the digest of the last such part, in lower case; where one
names a digest that cannot be verified, the link is refused. Parts that declare
nothing change nothing, wherever they stand and whatever the rest of the URL
is. -/
theorem declared_digest_counts {raw : String} {url : Url} (hurl : Url.parse raw = .ok url)
    (hname : Relpath.isPlainName (basenameOf url) = true) :
    ((∃ link, parse raw = .ok link) ↔ ∀ part ∈ partsOf url.fragment, Readable part)
    ∧ (∀ before part after, partsOf url.fragment = before ++ part :: after →
        NamesDigest part → (∀ other ∈ after, ¬ NamesDigest other) →
        ∀ link, parse raw = .ok link →
          ∃ spec, link.hash = some spec ∧ spec.toText = Text.lower part)
    ∧ (∀ part ∈ partsOf url.fragment, NamesUnsupported part → ∃ e, parse raw = .error e)
    ∧ ∀ raw' url', Url.parse raw' = .ok url' → Relpath.isPlainName (basenameOf url') = true →
        (partsOf url'.fragment).filter isMark = (partsOf url.fragment).filter isMark →
        found raw' = found raw := by
  have hread := parse_isOk_iff hurl hname
  refine ⟨hread, ?_, ?_, ?_⟩
  · rintro before part after hparts ⟨key, value, hpairs, halgo⟩ hlast link hparse
    obtain ⟨hurl', -, hmarks⟩ := parse_eq_ok_iff.1 hparse
    rw [hurl] at hurl'
    obtain rfl := Except.ok.inj hurl'
    rw [hparts] at hmarks
    obtain ⟨spec, hspec, hhash⟩ := hash_of_foldlM_append hmarks hpairs (isName_iff.2 (.inl halgo))
      fun other hmem spec hspec => hlast other hmem (namesDigest_of_parse hspec)
    exact ⟨spec, hhash, HashSpec.toText_of_parse hspec⟩
  · intro part hmem hunsupported
    cases hparse : parse raw with
    | error e => exact ⟨e, rfl⟩
    | ok link => exact absurd (hread.1 ⟨link, hparse⟩ part hmem) hunsupported.not_readable
  · intro raw' url' hurl' hname' hmarks
    rw [found_of_url hurl hname, found_of_url hurl' hname', ← foldlM_filter raw,
      ← foldlM_filter raw', hmarks, foldlM_kind]

set_option maxRecDepth 20000 in
/-- Of two digests in one fragment the last counts, in lower case, and the parts
around them do not. A digest that cannot be verified makes the link refused. -/
theorem declared_digest_counts_among_others :
    (∃ link spec,
      parse "http://example.com/a.zip#foo&md5=aaaaaaaaaaaaaaaa&SHA256=0123456789ABCDEF0&x="
          = .ok link
        ∧ link.hash = some spec ∧ spec.toText = "sha256=0123456789abcdef0")
    ∧ found "http://example.com/b.zip#md5=aaaaaaaaaaaaaaaa&SHA256=0123456789ABCDEF0"
        = found "http://example.com/a.zip#foo&md5=aaaaaaaaaaaaaaaa&SHA256=0123456789ABCDEF0&x="
    ∧ ∃ e, parse "http://example.com/a.zip#md5=aaaaaaaaaaaaaaaa&BLAKE2b=0" = .error e := by
  have hurl : Url.parse
      "http://example.com/a.zip#foo&md5=aaaaaaaaaaaaaaaa&SHA256=0123456789ABCDEF0&x="
      = .ok ⟨"http", some { host := some "example.com" }, .segments ["a.zip"], none,
          some "foo&md5=aaaaaaaaaaaaaaaa&SHA256=0123456789ABCDEF0&x="⟩ := rfl
  have hurl' : Url.parse "http://example.com/b.zip#md5=aaaaaaaaaaaaaaaa&SHA256=0123456789ABCDEF0"
      = .ok ⟨"http", some { host := some "example.com" }, .segments ["b.zip"], none,
          some "md5=aaaaaaaaaaaaaaaa&SHA256=0123456789ABCDEF0"⟩ := rfl
  have hurl'' : Url.parse "http://example.com/a.zip#md5=aaaaaaaaaaaaaaaa&BLAKE2b=0"
      = .ok ⟨"http", some { host := some "example.com" }, .segments ["a.zip"], none,
          some "md5=aaaaaaaaaaaaaaaa&BLAKE2b=0"⟩ := rfl
  have hparts : partsOf (some "foo&md5=aaaaaaaaaaaaaaaa&SHA256=0123456789ABCDEF0&x=")
      = ["foo", "md5=aaaaaaaaaaaaaaaa"] ++ "SHA256=0123456789ABCDEF0" :: ["x="] := rfl
  have hparts' : partsOf (some "md5=aaaaaaaaaaaaaaaa&SHA256=0123456789ABCDEF0")
      = ["md5=aaaaaaaaaaaaaaaa", "SHA256=0123456789ABCDEF0"] := rfl
  have hparts'' : partsOf (some "md5=aaaaaaaaaaaaaaaa&BLAKE2b=0")
      = ["md5=aaaaaaaaaaaaaaaa", "BLAKE2b=0"] := rfl
  have hspec : HashSpec.parse "SHA256=0123456789ABCDEF0" = .ok ⟨.sha256, "0123456789abcdef0"⟩ := rfl
  have hlast : ∀ other ∈ ["x="], ¬ NamesDigest other := by
    rintro other hmem ⟨key, value, hpairs, algo, hname⟩
    obtain rfl := List.mem_singleton.1 hmem
    cases pairs_iff.1 hpairs
    cases algo <;> exact absurd hname (by decide)
  have hunsupported : NamesUnsupported "BLAKE2b=0" :=
    ⟨"BLAKE2b", "0", pairs_iff.2 rfl, by decide⟩
  obtain ⟨-, hcounts, -, hsame⟩ := declared_digest_counts hurl rfl
  obtain ⟨-, -, hrefuses, -⟩ := declared_digest_counts hurl'' rfl
  have hparse : parse
      "http://example.com/a.zip#foo&md5=aaaaaaaaaaaaaaaa&SHA256=0123456789ABCDEF0&x="
      = .ok ⟨⟨"http", some { host := some "example.com" }, .segments ["a.zip"], none,
          some "foo&md5=aaaaaaaaaaaaaaaa&SHA256=0123456789ABCDEF0&x="⟩,
        some ⟨.sha256, "0123456789abcdef0"⟩, none⟩ := by
    rw [parse_of_url hurl rfl, hparts]
    rfl
  obtain ⟨spec, hhash, htext⟩ := hcounts _ _ _ hparts (namesDigest_of_parse hspec) hlast _ hparse
  refine ⟨⟨_, spec, hparse, hhash, htext⟩, hsame _ _ hurl' rfl ?_, ?_⟩
  · dsimp only
    rw [hparts, hparts']
    rfl
  · refine hrefuses _ ?_ hunsupported
    dsimp only
    rw [hparts'']
    exact List.mem_cons_of_mem _ (List.mem_cons_self ..)

end Link

end Depot
