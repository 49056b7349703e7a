/-
Entries beside each other on disk. The files of all links and uploads lie
in one directory tree, and a blob can be put at a place only if no other
lies there, above or below it. Pieces of a relpath that say nothing are
dropped on the way to its place, and the directories of links and uploads
are nowhere kept apart; so one entry can be in the way of another, and
`Origin.apart_iff` says when: links that lead through no directory lie
right below `+e`, among the directories of the other links, and users and
indexes may be called like the directories that links are kept in.

What it means to be in the way is said of commits (`Blocked`): none puts
the blob of one entry where that of the other lies, and none puts both.
-/
import Depot.Proofs.Link
import Depot.Proofs.Store.Puts
import Depot.Store.Entry

namespace Depot

open Text Files Files.Tree

/-- The directory that the content of a link without a digest is kept
in. -/
def Link.dirName (link : Link) : String := Relpath.sanitize (joinWith '_' link.dirs)

/-- What a relpath is made for. -/
inductive Origin where
  | mapped (link : Link)
  | uploaded (user index : String) (spec : HashSpec) (basename : String)

namespace Origin

variable {o a b : Origin}

/-- Where the content is kept. -/
def relpath : Origin → String
  | .mapped link => link.relpath
  | .uploaded user index spec basename => Relpath.ofUpload user index spec basename

/-- A link that was read, as it is or given a digest, or an upload under
plain names. -/
inductive Sound : Origin → Prop
  | read {raw : String} {link : Link} : Link.parse raw = .ok link → Sound (.mapped link)
  | hashed {raw : String} {link : Link} {spec : HashSpec} :
      Link.parse raw = .ok link → spec.Genuine → Sound (.mapped (link.withHash spec))
  | upload {user index basename : String} {spec : HashSpec} :
      Entry.isUpload user index basename = true → spec.Genuine →
      Sound (.uploaded user index spec basename)

-- ===================================================== pieces and places

/-- The pieces of the relpath. -/
def pieces : Origin → List String
  | .mapped link =>
      match link.hash with
      | some spec => [spec.shards.1, spec.shards.2, link.basename]
      | none => [Relpath.eggDir, link.dirName, link.basename]
  | .uploaded user index spec basename =>
      [user, index, Relpath.uploadDir, spec.shards.1, spec.shards.2, basename]

/-- The link of a sound origin has a plain name, and a digest that shards
are made of, if it has one. -/
theorem Sound.link {link : Link} (h : Sound (.mapped link)) :
    Relpath.isPlainName link.basename = true
      ∧ ∀ spec, link.hash = some spec → HashSpec.isDigest spec.value = true := by
  cases h with
  | read hparse => exact ⟨(Link.of_parse hparse).2, fun spec => Link.isDigest_hash hparse⟩
  | hashed hparse hspec =>
      refine ⟨(Link.of_parse hparse).2, fun spec heq => ?_⟩
      cases heq
      exact hspec.isDigest

theorem Sound.names {user index basename : String} {spec : HashSpec}
    (h : Sound (.uploaded user index spec basename)) :
    Relpath.isPlainName user = true ∧ Relpath.isPlainName index = true
      ∧ Relpath.isPlainName basename = true ∧ HashSpec.isDigest spec.value = true := by
  cases h with
  | upload hnames hspec =>
      unfold Entry.isUpload at hnames
      simp only [List.all_cons, List.all_nil, Bool.and_true, Bool.and_eq_true] at hnames
      exact ⟨hnames.1, hnames.2.1, hnames.2.2, hspec.isDigest⟩

theorem split_relpath (h : o.Sound) : split '/' o.relpath = o.pieces := by
  cases o with
  | mapped link =>
      obtain ⟨hbase, hdigest⟩ := h.link
      have hname := (Relpath.isPlainName_iff.1 hbase).2.2.2
      unfold relpath pieces
      cases hhash : link.hash with
      | some spec =>
          obtain ⟨hfirst, hsecond⟩ := Relpath.isPiece_shards (hdigest spec hhash)
          simp only [hhash, Link.relpath_of_hash hhash]
          exact Relpath.split_three hfirst hsecond hname
      | none =>
          simp only [hhash, Link.relpath_of_no_hash hhash]
          exact Relpath.split_three Relpath.isPiece_eggDir (Relpath.isPiece_sanitize _) hname
  | uploaded user index spec basename =>
      obtain ⟨huser, hindex, hbase, hdigest⟩ := h.names
      obtain ⟨hfirst, hsecond⟩ := Relpath.isPiece_shards hdigest
      have hpiece : ∀ {name}, Relpath.isPlainName name = true → split '/' name = [name] :=
        fun hname => (Relpath.isPlainName_iff.1 hname).2.2.2.split
      have hshard := Relpath.split_three hfirst hsecond (Relpath.isPlainName_iff.1 hbase).2.2.2
      show split '/' (user ++ "/" ++ index ++ "/" ++ Relpath.uploadDir ++ "/"
        ++ (spec.shards.1 ++ "/" ++ spec.shards.2 ++ "/" ++ basename)) = _
      rw [split_slash, split_slash, split_slash, hshard, hpiece huser, hpiece hindex,
        hpiece (show Relpath.isPlainName Relpath.uploadDir = true by decide)]
      rfl

/-- A relpath tells its pieces. -/
theorem relpath_inj (ha : a.Sound) (hb : b.Sound) :
    a.relpath = b.relpath ↔ a.pieces = b.pieces := by
  constructor
  · intro h
    rw [← split_relpath ha, ← split_relpath hb, h]
  · intro h
    rw [← joinWith_split '/' a.relpath, ← joinWith_split '/' b.relpath, split_relpath ha,
      split_relpath hb, h]

theorem isIdle_of_plain {name : String} (h : Relpath.isPlainName name = true) :
    Path.isIdle name = false := by
  obtain ⟨hempty, hhere, -⟩ := Relpath.isPlainName_iff.1 h
  unfold Path.isIdle
  simp [hempty, hhere]

theorem isIdle_shards {spec : HashSpec} (h : HashSpec.isDigest spec.value = true) :
    Path.isIdle spec.shards.1 = false ∧ Path.isIdle spec.shards.2 = false
      ∧ spec.shards.1 ≠ Relpath.eggDir := by
  obtain ⟨hfirst, hsecond⟩ := Relpath.shards_length h
  refine ⟨isIdle_of_plain (Relpath.isPlainName_shards h), ?_, ?_⟩
  · unfold Path.isIdle
    simp only [Bool.or_eq_false_iff, decide_eq_false_iff_not]
    constructor <;> (intro heq; rw [heq] at hsecond; cases hsecond)
  · intro heq
    rw [heq] at hfirst
    cases hfirst

/-- The names that lead to the file. Only the directory of a link without a
digest may be a piece that says nothing. -/
def place : Origin → Place
  | .mapped link =>
      match link.hash with
      | some spec => [spec.shards.1, spec.shards.2, link.basename]
      | none =>
          if Path.isIdle link.dirName then [Relpath.eggDir, link.basename]
          else [Relpath.eggDir, link.dirName, link.basename]
  | .uploaded user index spec basename =>
      [user, index, Relpath.uploadDir, spec.shards.1, spec.shards.2, basename]

theorem place_relpath (h : o.Sound) : Store.place o.relpath = o.place := by
  have hegg : Path.isIdle Relpath.eggDir = false := by decide
  have hdir : Path.isIdle Relpath.uploadDir = false := by decide
  unfold Store.place Store.pieces
  rw [split_relpath h]
  cases o with
  | mapped link =>
      obtain ⟨hbase, hdigest⟩ := h.link
      have hname := isIdle_of_plain hbase
      unfold pieces place
      cases hhash : link.hash with
      | some spec =>
          obtain ⟨hfirst, hsecond, -⟩ := isIdle_shards (hdigest spec hhash)
          simp [hhash, names, hfirst, hsecond, hname]
      | none => cases hidle : Path.isIdle link.dirName <;> simp [hhash, names, hegg, hidle, hname]
  | uploaded user index spec basename =>
      obtain ⟨huser, hindex, hbase, hdigest⟩ := h.names
      obtain ⟨hfirst, hsecond, -⟩ := isIdle_shards hdigest
      simp [pieces, place, names, isIdle_of_plain huser, isIdle_of_plain hindex, hdir, hfirst,
        hsecond, isIdle_of_plain hbase]

-- ===================================================== who is in the way

/-- Whether the content of the one, if it lies at its place, is in the way of
the other: it lies there too, or where a directory is to be. -/
def Obstructs : Origin → Origin → Prop
  | .mapped a, .mapped b =>
      a.hash = none ∧ b.hash = none ∧ Path.isIdle a.dirName = true
        ∧ a.basename = if Path.isIdle b.dirName then b.basename else b.dirName
  | .mapped a, .uploaded user index _ _ =>
      match a.hash with
      | some spec =>
          user = spec.shards.1 ∧ index = spec.shards.2 ∧ a.basename = Relpath.uploadDir
      | none =>
          user = Relpath.eggDir
            ∧ if Path.isIdle a.dirName then index = a.basename
              else index = a.dirName ∧ a.basename = Relpath.uploadDir
  | .uploaded .., _ => False

/-- Of two relpaths, the place of one is that of the other or above it just
if it is in the way. -/
theorem isPrefix_iff (ha : a.Sound) (hb : b.Sound) (hne : a.relpath ≠ b.relpath) :
    Store.place a.relpath <+: Store.place b.relpath ↔ a.Obstructs b := by
  have hpieces : a.pieces ≠ b.pieces := fun h => hne ((relpath_inj ha hb).2 h)
  rw [place_relpath ha, place_relpath hb]
  cases a with
  | mapped a =>
      cases b with
      | mapped b =>
          unfold place Obstructs
          unfold pieces at hpieces
          cases hspec : a.hash with
          | some spec =>
              have hshard := (isIdle_shards (ha.link.2 spec hspec)).2.2
              cases hspec' : b.hash with
              | some spec' =>
                  -- three names each, so they are the same ones
                  simp only [hspec, hspec'] at hpieces ⊢
                  exact iff_of_false (fun h => hpieces (h.eq_of_length (by simp))) nofun
              | none => cases hidle : Path.isIdle b.dirName <;> simp [hspec, hspec', hidle, hshard]
          | none =>
              cases hspec' : b.hash with
              | some spec' =>
                  have hshard := (isIdle_shards (hb.link.2 spec' hspec')).2.2
                  cases hidle : Path.isIdle a.dirName <;>
                    simp [hspec, hspec', hidle, Ne.symm hshard]
              | none =>
                  simp only [hspec, hspec'] at hpieces ⊢
                  cases hidle : Path.isIdle a.dirName with
                  | true => cases hidle' : Path.isIdle b.dirName <;> simp
                  | false =>
                      refine iff_of_false (fun h => ?_) (by simp)
                      cases hidle' : Path.isIdle b.dirName with
                      | true => simpa [hidle, hidle'] using h.length_le
                      | false =>
                          simp only [hidle', Bool.false_eq_true, ↓reduceIte] at h
                          exact hpieces (h.eq_of_length (by simp))
      | uploaded user index spec basename =>
          unfold place Obstructs
          cases hspec : a.hash with
          | some spec' => simp [hspec, @eq_comm _ user, @eq_comm _ index]
          | none =>
              cases hidle : Path.isIdle a.dirName <;>
                simp [hspec, hidle, @eq_comm _ user, @eq_comm _ index]
  | uploaded user index spec basename =>
      cases b with
      | mapped b =>
          -- the place of an upload is longer
          refine iff_of_false (fun h => ?_) id
          have hlen := h.length_le
          unfold place at hlen
          cases hspec : b.hash with
          | some spec' => simp [hspec] at hlen
          | none => cases hidle : Path.isIdle b.dirName <;> simp [hspec, hidle] at hlen
      | uploaded user' index' spec' basename' =>
          exact iff_of_false (fun h => hpieces (h.eq_of_length (by simp [place]))) id

end Origin

namespace Transaction

variable {tx : Transaction} {store after : Store} {r r' : String}

-- ===================================================== what is in the way of commits

/-- A blob that is put lies at its place afterwards. -/
theorem Placed.file (h : tx.Placed store after) (hpends : tx.Pends) {content : Bytes}
    (hblob : tx.blobs[r]? = some (some content)) :
    ∃ c, after.files.node? (Store.place r) = some (.file c) := by
  rw [h.node hpends]
  rcases foldl_shelve tx.staged (Store.place r) with ⟨c, hc⟩ | ⟨hne, -⟩
  · exact ⟨c, hc _⟩
  · exact (hne _ (mem_staged.2 hblob) rfl).elim

/-- Above it there are directories, where there were no files. -/
theorem Placed.above (h : tx.Placed store after) (hpends : tx.Pends) {content : Bytes}
    (hblob : tx.blobs[r]? = some (some content)) {q : Place}
    (hq : q <+: (Store.place r).dropLast) :
    after.files.node? q = some .dir ∧ ∀ c, store.files.node? q ≠ some (.file c) := by
  obtain ⟨ready, hstage, hmove⟩ := h
  have hgrown := stageAll_grown hpends.staged store
  obtain ⟨hmoved, -⟩ := moveAll_spec hpends.staged ready
  rw [hstage] at hgrown
  rw [hmove] at hmoved
  have habove : isAbove tx.staged q = true :=
    List.any_eq_true.2 ⟨_, mem_staged.2 hblob, decide_eq_true hq⟩
  have hready : ready.files.node? q = some .dir := by
    rw [node?_stageAll hpends.staged hstage, if_pos habove]
  refine ⟨hmoved.dirs q hready, fun c hfile => ?_⟩
  rcases hgrown.node q with hsame | ⟨hnone, -, -⟩
  · rw [hready, hfile] at hsame
    cases hsame
  · rw [hfile] at hnone
    cases hnone

/-- No commit puts the blob of the one where that of the other lies,
whichever is there first, and none puts both. -/
structure Blocked (r r' : String) : Prop where
  later : ∀ (tx : Transaction) (store after : Store) (content content' : Bytes), tx.Pends →
    tx.Placed store after → store.files.node? (Store.place r) = some (.file content) →
    tx.blobs[r']? ≠ some (some content')
  earlier : ∀ (tx : Transaction) (store after : Store) (content content' : Bytes), tx.Pends →
    store.files.Closed → tx.Placed store after →
    store.files.node? (Store.place r') = some (.file content') →
    tx.blobs[r]? ≠ some (some content)
  together : ∀ (tx : Transaction) (store after : Store) (content content' : Bytes), tx.Pends →
    tx.Placed store after → tx.blobs[r]? = some (some content) →
    tx.blobs[r']? ≠ some (some content')

/-- In a closed tree there are directories above whatever there is. -/
theorem dir_of_isPrefix {t : Tree} (hclosed : t.Closed) {p q : Place}
    (h : t.node? q ≠ none) (hp : p <+: q.dropLast) : t.node? p = some .dir := by
  induction q using List.reverseRecOn with
  | nil =>
      obtain rfl := List.prefix_nil.1 hp
      exact node?_nil t
  | append_singleton above name ih =>
      have hdir := hclosed.below above name h
      rw [List.dropLast_concat] at hp
      rcases above.eq_nil_or_concat with rfl | ⟨above', name', rfl⟩
      · obtain rfl := List.prefix_nil.1 hp
        exact hdir
      · rw [List.concat_eq_append] at *
        rcases List.prefix_concat_iff.1 hp with rfl | hp
        · exact hdir
        · refine ih (by simp [hdir]) ?_
          rwa [List.dropLast_concat]

/-- What lies above the place of another is in its way. -/
theorem blocked_of_isPrefix (h : Store.place r <+: Store.place r')
    (hne : Store.place r ≠ Store.place r') : Blocked r r' := by
  have habove : Store.place r <+: (Store.place r').dropLast := by
    rcases (Store.place r').eq_nil_or_concat with hnil | ⟨above, name, hplace⟩
    · rw [hnil] at h ⊢
      exact h
    · rw [hplace, List.concat_eq_append] at h hne ⊢
      rw [List.dropLast_concat]
      exact (List.prefix_concat_iff.1 h).resolve_left hne
  constructor
  · intro tx store after content content' hpends hplaced hfile hblob
    exact (hplaced.above hpends hblob habove).2 content hfile
  · intro tx store after content content' hpends hclosed hplaced hfile hblob
    have hdir := dir_of_isPrefix hclosed (by simp [hfile]) habove
    obtain ⟨c, hafter⟩ := hplaced.file hpends hblob
    rw [(hplaced.laid hpends).1.dirs _ hdir] at hafter
    cases hafter
  · intro tx store after content content' hpends hplaced hblob hblob'
    obtain ⟨c, hafter⟩ := hplaced.file hpends hblob
    rw [(hplaced.above hpends hblob' habove).1] at hafter
    cases hafter

end Transaction

namespace Origin

variable {a b : Origin}

/-- Two relpaths that name files lead to their places only. These are
different, and none is above the other, just if neither entry is in the way
of the other; and where one is, the two have one place, or the blobs of both
are never there. -/
theorem apart_iff (ha : a.Sound) (hb : b.Sound) (hvalid : Relpath.isValid a.relpath = true)
    (hvalid' : Relpath.isValid b.relpath = true) (hne : a.relpath ≠ b.relpath) :
    (∀ (t : Tree) (dest : Place),
      (t.walk (Store.pieces a.relpath) = .ok dest → dest = Store.place a.relpath)
        ∧ (t.walk (Store.pieces b.relpath) = .ok dest → dest = Store.place b.relpath))
      ∧ ((Store.place a.relpath ≠ Store.place b.relpath
            ∧ ¬Store.place a.relpath <+: Store.place b.relpath
            ∧ ¬Store.place b.relpath <+: Store.place a.relpath)
          ↔ ¬a.Obstructs b ∧ ¬b.Obstructs a)
      ∧ (a.Obstructs b → Store.place a.relpath ≠ Store.place b.relpath →
          Transaction.Blocked a.relpath b.relpath) := by
  have hto := isPrefix_iff ha hb hne
  have hfrom := isPrefix_iff hb ha (Ne.symm hne)
  refine ⟨fun t dest => ⟨fun h => ?_, fun h => ?_⟩, ?_, fun h hplace => ?_⟩
  · exact walk_eq h (Relpath.up_not_mem hvalid)
  · exact walk_eq h (Relpath.up_not_mem hvalid')
  · rw [hto, hfrom, and_iff_right_of_imp]
    intro hnot heq
    exact hnot.1 (hto.1 (heq ▸ List.prefix_refl _))
  · exact Transaction.blocked_of_isPrefix (hto.2 h) hplace

set_option maxRecDepth 20000 in
/-- A file URL has no host, so its content lies where the directory of the
host of another is to be; and an upload by a user `+e` goes below a link
named like the directory of uploads. -/
theorem apart_fails_below_links : ∃ a b c d : Origin,
    a.Sound ∧ b.Sound ∧ a.relpath = "+e//x" ∧ b.relpath = "+e/x/y"
      ∧ Transaction.Blocked a.relpath b.relpath
      ∧ c.Sound ∧ d.Sound ∧ c.relpath = "+e/dev/+f"
      ∧ d.relpath = "+e/dev/+f/0f5/f13cf0b14c88b/x"
      ∧ Transaction.Blocked c.relpath d.relpath := by
  have hfile : Link.parse "file:///x"
      = .ok ⟨⟨"file", some {}, .segments ["x"], none, none⟩, none, none⟩ := rfl
  have hhost : Link.parse "http://x/y"
      = .ok ⟨⟨"http", some { host := some "x" }, .segments ["y"], none, none⟩, none, none⟩ := rfl
  have hlike : Link.parse "http://dev/+f"
      = .ok ⟨⟨"http", some { host := some "dev" }, .segments ["+f"], none, none⟩, none, none⟩ := rfl
  have hspec : HashSpec.parse "md5=0f5f13cf0b14c88bd431ef163b63d68d"
      = .ok ⟨.md5, "0f5f13cf0b14c88bd431ef163b63d68d"⟩ := rfl
  have hupload : Sound (.uploaded "+e" "dev" ⟨.md5, "0f5f13cf0b14c88bd431ef163b63d68d"⟩ "x") :=
    .upload (by decide) (.inl ⟨_, hspec⟩)
  obtain ⟨-, -, hlinks⟩ := apart_iff (.read hfile) (.read hhost) rfl rfl (by decide)
  obtain ⟨-, -, hboth⟩ := apart_iff (.read hlike) hupload rfl rfl (by decide)
  refine ⟨_, _, _, _, .read hfile, .read hhost, rfl, rfl, hlinks ⟨rfl, rfl, rfl, rfl⟩ (by decide),
    .read hlike, hupload, rfl, rfl, hboth ⟨rfl, ?_⟩ (by decide)⟩
  exact ⟨rfl, rfl⟩

end Origin

end Depot
